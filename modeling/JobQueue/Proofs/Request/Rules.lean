import JobQueue.Proofs.Json.Nesting
import JobQueue.Request.Fault

/-! # The rules for requests

A request has two names, of the queue and of the kind of work. A name has 1 to 64 bytes and is made
of ASCII letters, digits and the signs `_`, `-`, `.` and `:`. The number of attempts, if there is
one, is at least one. No nesting in the payload is longer than 32 containers, the payload itself
being the first.

A request may break several rules. They are read in a fixed order, in which each fault has its place
(`RequestFault.place`), and the fault that is reported is the first one.

* `Request.Proper`: the rules; `Request.Breaks`: what breaks them, fault by fault.
* `Request.Clear`: the places up to which nothing is broken. Each of the four checks moves it on.
* `Request.check_finds_first`: **a request passes just if it keeps all rules, and else the first
  fault is reported.** -/

namespace JobQueue

/-- An ASCII letter or digit, or one of four signs. -/
def IsNameSign (c : Char) : Prop :=
  ('a' ≤ c ∧ c ≤ 'z') ∨ ('A' ≤ c ∧ c ≤ 'Z') ∨ ('0' ≤ c ∧ c ≤ '9') ∨
    c = '_' ∨ c = '-' ∨ c = '.' ∨ c = ':'

/-- **The rule for names.** -/
structure IsName (name : String) : Prop where
  nonempty : 1 ≤ name.utf8ByteSize
  short : name.utf8ByteSize ≤ 64
  signs : ∀ c ∈ name.toList, IsNameSign c

/-- The place of a name among the names of a request. -/
def NameField.place : NameField → Nat
  | .queue => 0
  | .jobType => 1

/-- **The place of a fault** in the order in which the rules are read. -/
def RequestFault.place : RequestFault → Nat
  | .emptyName field => 3 * field.place
  | .longName field _ => 3 * field.place + 1
  | .illegalName field _ => 3 * field.place + 2
  | .noAttempts _ => 6
  | .deepPayload _ => 7

namespace Request

variable {request : Request}

/-- A name in the request. -/
def name (request : Request) : NameField → String
  | .queue => request.queue
  | .jobType => request.jobType

/-- **The request keeps all rules.** -/
structure Proper (request : Request) : Prop where
  queue : IsName request.queue
  jobType : IsName request.jobType
  attempts : ∀ n, request.maxAttempts = some n → 1 ≤ n
  payload : ∀ inner, Json.IsNesting (.obj request.payload :: inner) → inner.length + 1 ≤ 32

/-- **The request has the fault**, whatever other faults it has. -/
inductive Breaks (request : Request) : RequestFault → Prop
  | emptyName (field : NameField) (h : (request.name field).utf8ByteSize = 0) :
      Breaks request (.emptyName field)
  | longName (field : NameField) (h : 64 < (request.name field).utf8ByteSize) :
      Breaks request (.longName field (request.name field).utf8ByteSize)
  | illegalName (field : NameField) (c : Char) (hc : c ∈ (request.name field).toList)
      (h : ¬ IsNameSign c) : Breaks request (.illegalName field (request.name field))
  | noAttempts (n : Int) (hn : request.maxAttempts = some n) (h : n < 1) :
      Breaks request (.noAttempts n)
  | deepPayload (levels : Nat) (hlevels : Json.LongestNesting (.obj request.payload) levels)
      (h : 32 < levels) : Breaks request (.deepPayload levels)

/-! ### Characters and payloads -/

theorem isNameChar_iff {c : Char} : isNameChar c = true ↔ IsNameSign c := by
  have halpha : c.isAlpha = (c.isUpper || c.isLower) := rfl
  have hupper : c.isUpper = true ↔ 'A' ≤ c ∧ c ≤ 'Z' := decide_eq_true_iff
  have hlower : c.isLower = true ↔ 'a' ≤ c ∧ c ≤ 'z' := by
    show (decide ('a' ≤ c) && decide (c ≤ 'z')) = true ↔ _
    rw [Bool.and_eq_true, decide_eq_true_iff, decide_eq_true_iff]
  have hdigit : c.isDigit = true ↔ '0' ≤ c ∧ c ≤ '9' := by
    show (decide ('0' ≤ c) && decide (c ≤ '9')) = true ↔ _
    rw [Bool.and_eq_true, decide_eq_true_iff, decide_eq_true_iff]
  simp only [isNameChar, Char.isAlphanum, halpha, Bool.or_eq_true, beq_iff_eq, hupper, hlower,
    hdigit, or_assoc]
  exact or_left_comm

theorem longestNesting_payload_iff {levels : Nat} :
    Json.LongestNesting (.obj request.payload) levels ↔ request.payloadLevels = levels :=
  Json.longestNesting_iff rfl

theorem payloadLevels_le_iff : request.payloadLevels ≤ 32 ↔
    ∀ inner, Json.IsNesting (.obj request.payload :: inner) → inner.length + 1 ≤ 32 := by
  obtain ⟨⟨longest, hlongest, hlength⟩, hbound⟩ := longestNesting_payload_iff.2 rfl
  constructor
  · intro h inner hinner
    exact (hbound inner hinner).trans h
  · intro h
    have hlevels := h longest hlongest
    rw [← hlength]
    exact hlevels

/-! ### Faults and their places -/

theorem proper_iff : request.Proper ↔ ∀ fault, ¬ request.Breaks fault := by
  constructor
  · rintro ⟨hqueue, hjobType, hattempts, hpayload⟩ fault hfault
    have hname : ∀ field, IsName (request.name field) := by
      intro field
      cases field
      · exact hqueue
      · exact hjobType
    cases hfault with
    | emptyName field h =>
      have := (hname field).nonempty
      omega
    | longName field h =>
      have := (hname field).short
      omega
    | illegalName field c hc h => exact h ((hname field).signs c hc)
    | noAttempts n hn h =>
      have := hattempts n hn
      omega
    | deepPayload levels hlevels h =>
      have hle := payloadLevels_le_iff.2 hpayload
      have heq := longestNesting_payload_iff.1 hlevels
      omega
  · intro hnone
    have hname : ∀ field, IsName (request.name field) := by
      intro field
      refine ⟨?_, ?_, ?_⟩
      · by_contra h
        exact hnone _ (.emptyName field (by omega))
      · by_contra h
        exact hnone _ (.longName field (by omega))
      · intro c hc
        by_contra h
        exact hnone _ (.illegalName field c hc h)
    refine ⟨hname .queue, hname .jobType, ?_, ?_⟩
    · intro n hn
      by_contra h
      exact hnone _ (.noAttempts n hn (by omega))
    · refine payloadLevels_le_iff.1 ?_
      by_contra h
      exact hnone _ (.deepPayload _ (longestNesting_payload_iff.2 rfl) (by omega))

/-- The fault at a place, for a request that has one there. -/
def faultAt (request : Request) : Nat → RequestFault
  | 0 => .emptyName .queue
  | 1 => .longName .queue request.queue.utf8ByteSize
  | 2 => .illegalName .queue request.queue
  | 3 => .emptyName .jobType
  | 4 => .longName .jobType request.jobType.utf8ByteSize
  | 5 => .illegalName .jobType request.jobType
  | 6 => .noAttempts (request.maxAttempts.getD 0)
  | _ => .deepPayload request.payloadLevels

theorem Breaks.eq_faultAt {fault : RequestFault} (h : request.Breaks fault) :
    fault = request.faultAt fault.place := by
  cases h with
  | emptyName field h => cases field <;> rfl
  | longName field h => cases field <;> rfl
  | illegalName field c hc h => cases field <;> rfl
  | noAttempts n hn h =>
    show RequestFault.noAttempts n = .noAttempts (request.maxAttempts.getD 0)
    rw [hn]
    rfl
  | deepPayload levels hlevels h =>
    show RequestFault.deepPayload levels = .deepPayload request.payloadLevels
    rw [longestNesting_payload_iff.1 hlevels]

theorem Breaks.place_lt {fault : RequestFault} (h : request.Breaks fault) : fault.place < 8 := by
  cases h with
  | emptyName field h => cases field <;> decide
  | longName field h => cases field <;> simp [RequestFault.place, NameField.place]
  | illegalName field c hc h => cases field <;> simp [RequestFault.place, NameField.place]
  | noAttempts n hn h => simp [RequestFault.place]
  | deepPayload levels hlevels h => simp [RequestFault.place]

/-- **Nothing before the place is broken.** -/
def Clear (request : Request) (place : Nat) : Prop :=
  ∀ fault, request.Breaks fault → place ≤ fault.place

theorem clear_zero (request : Request) : request.Clear 0 := fun _ _ => Nat.zero_le _

theorem Clear.next {place : Nat} (h : request.Clear place)
    (hnot : ¬ request.Breaks (request.faultAt place)) : request.Clear (place + 1) := by
  intro fault hfault
  have hle := h fault hfault
  have hne : fault.place ≠ place := by
    rintro rfl
    rw [← hfault.eq_faultAt] at hnot
    exact hnot hfault
  omega

/-! ### The checks -/

/-- **What a check finds**: nothing is broken before the next place, or the fault is the first. -/
def Finds (request : Request) (next : Nat) : Except RequestFault Unit → Prop
  | .ok () => request.Clear next
  | .error fault => request.Breaks fault ∧ request.Clear fault.place

theorem Finds.andThen {next last : Nat} {first second : Except RequestFault Unit}
    (h : request.Finds next first) (hsecond : request.Clear next → request.Finds last second) :
    request.Finds last (first >>= fun _ => second) := by
  cases first with
  | error fault => exact h
  | ok => exact hsecond h

theorem finds_checkName (field : NameField) (h : request.Clear (3 * field.place)) :
    request.Finds (3 * field.place + 3) (checkName field (request.name field)) := by
  have hempty : (request.name field).isEmpty = true ↔ (request.name field).utf8ByteSize = 0 := by
    simp [String.isEmpty]
  have hsigns : (request.name field).toList.all isNameChar = true ↔
      ∀ c ∈ (request.name field).toList, IsNameSign c := by
    simp [isNameChar_iff]
  unfold checkName
  by_cases hsize : (request.name field).isEmpty = true
  · rw [if_pos hsize]
    exact ⟨.emptyName field (hempty.1 hsize), h⟩
  rw [if_neg hsize]
  have hlength : request.Clear (3 * field.place + 1) := by
    refine h.next fun hbroken => ?_
    rw [show request.faultAt (3 * field.place) = .emptyName field by cases field <;> rfl] at hbroken
    cases hbroken with
    | emptyName _ hzero => exact hsize (hempty.2 hzero)
  by_cases hlong : maxNameBytes < (request.name field).utf8ByteSize
  · rw [if_pos hlong]
    exact ⟨.longName field hlong, hlength⟩
  rw [if_neg hlong]
  have hchars : request.Clear (3 * field.place + 2) := by
    refine hlength.next fun hbroken => ?_
    rw [show request.faultAt (3 * field.place + 1) =
      .longName field (request.name field).utf8ByteSize by cases field <;> rfl] at hbroken
    cases hbroken with
    | longName _ hbytes => exact hlong hbytes
  by_cases hlegal : (request.name field).toList.all isNameChar = true
  · rw [if_pos hlegal]
    refine hchars.next fun hbroken => ?_
    rw [show request.faultAt (3 * field.place + 2) =
      .illegalName field (request.name field) by cases field <;> rfl] at hbroken
    cases hbroken with
    | illegalName _ c hc hsign => exact hsign (hsigns.1 hlegal c hc)
  · rw [if_neg hlegal]
    have hsome : ∃ c ∈ (request.name field).toList, ¬ IsNameSign c := by
      by_contra hnone
      refine hlegal (hsigns.2 fun c hc => ?_)
      by_contra hsign
      exact hnone ⟨c, hc, hsign⟩
    obtain ⟨c, hc, hsign⟩ := hsome
    exact ⟨.illegalName field c hc hsign, hchars⟩

theorem finds_checkAttempts (h : request.Clear 6) :
    request.Finds 7 (checkAttempts request.maxAttempts) := by
  unfold checkAttempts
  cases hmax : request.maxAttempts with
  | none =>
    refine h.next fun hbroken => ?_
    cases hbroken with
    | noAttempts _ hn _ => rw [hmax] at hn; cases hn
  | some n =>
    by_cases hn : n < 1
    · simp only [if_pos hn]
      exact ⟨.noAttempts n hmax hn, h⟩
    · simp only [if_neg hn]
      refine h.next fun hbroken => ?_
      cases hbroken with
      | noAttempts _ _ hfew =>
        rw [hmax] at hfew
        exact hn hfew

theorem finds_checkPayload (h : request.Clear 7) : request.Finds 8 request.checkPayload := by
  have hlongest := longestNesting_payload_iff.2 (Eq.refl request.payloadLevels)
  unfold checkPayload
  by_cases hdeep : maxPayloadLevels < request.payloadLevels
  · rw [if_pos hdeep]
    exact ⟨.deepPayload _ hlongest hdeep, h⟩
  · rw [if_neg hdeep]
    refine h.next fun hbroken => ?_
    cases hbroken with
    | deepPayload _ _ hmore => exact hdeep hmore

/-- **The check finds the first fault**, if there is one. -/
theorem finds_check (request : Request) : request.Finds 8 request.check := by
  have hqueue := finds_checkName .queue request.clear_zero
  refine hqueue.andThen fun hnext => ?_
  refine (finds_checkName .jobType hnext).andThen fun hnext => ?_
  exact (finds_checkAttempts hnext).andThen finds_checkPayload

theorem check_eq_error_iff {fault : RequestFault} :
    request.check = .error fault ↔ request.Breaks fault ∧ request.Clear fault.place := by
  have hfinds := request.finds_check
  constructor
  · intro h
    rw [h] at hfinds
    exact hfinds
  · rintro ⟨hbroken, hclear⟩
    cases hcheck : request.check with
    | ok =>
      rw [hcheck] at hfinds
      have hplace := hfinds fault hbroken
      have hlt := hbroken.place_lt
      omega
    | error found =>
      rw [hcheck] at hfinds
      obtain ⟨hfound, hbefore⟩ := hfinds
      have hplace : fault.place = found.place :=
        Nat.le_antisymm (hclear found hfound) (hbefore fault hbroken)
      rw [hbroken.eq_faultAt, hfound.eq_faultAt, hplace]

theorem check_eq_ok_iff : request.check = .ok () ↔ request.Proper := by
  have hfinds := request.finds_check
  rw [proper_iff]
  constructor
  · intro h fault hbroken
    rw [h] at hfinds
    have hplace := hfinds fault hbroken
    have hlt := hbroken.place_lt
    omega
  · intro hnone
    cases hcheck : request.check with
    | ok => rfl
    | error fault =>
      rw [hcheck] at hfinds
      exact absurd hfinds.1 (hnone fault)

theorem message_deepPayload (levels : Nat) : (RequestFault.deepPayload levels).message =
    "payload too deeply nested (" ++ String.ofList (Decimal.digits levels) ++
      " levels, max 32)" := by
  have hmax : RequestFault.number maxPayloadLevels = "32" := by decide +kernel
  have hend : " levels, max " ++ ("32" ++ ")") = " levels, max 32)" := by simp
  have hmessage : (RequestFault.deepPayload levels).message = "payload too deeply nested (" ++
      RequestFault.number levels ++ " levels, max " ++ RequestFault.number maxPayloadLevels ++
        ")" := by
    unfold RequestFault.message
    with_reducible rfl
  rw [hmessage, hmax, String.append_assoc, String.append_assoc, hend]
  unfold RequestFault.number
  with_reducible rfl

/-- **A request passes just if it keeps all rules**: both names have 1 to 64 bytes and only ASCII
letters, digits and the signs of names; the attempts, if given, are at least one; and no nesting in
the payload is longer than 32 containers, the payload being the first.

Else it is refused with an error of validation, for the first of its faults in the order of their
places. A payload that is too deep is reported with the length of its longest nesting. -/
theorem check_finds_first (request : Request) :
    (request.check = .ok () ↔ request.Proper) ∧
      (¬ request.Proper → ∃ fault, request.check = .error fault ∧
        fault.toError.kind = .validation) ∧
      (∀ fault, request.check = .error fault ↔
        request.Breaks fault ∧ ∀ other, request.Breaks other → fault.place ≤ other.place) ∧
      ∀ levels, request.check = .error (.deepPayload levels) →
        Json.LongestNesting (.obj request.payload) levels ∧
          (RequestFault.deepPayload levels).toError = .validation ("payload too deeply nested (" ++
            String.ofList (Decimal.digits levels) ++ " levels, max 32)") := by
  refine ⟨check_eq_ok_iff, fun himproper => ?_, fun fault => check_eq_error_iff,
    fun levels hdeep => ?_⟩
  · cases hcheck : request.check with
    | ok => exact absurd (check_eq_ok_iff.1 hcheck) himproper
    | error fault => exact ⟨fault, rfl, rfl⟩
  · obtain ⟨hbroken, -⟩ := check_eq_error_iff.1 hdeep
    cases hbroken with
    | deepPayload _ hlongest _ => exact ⟨hlongest, congrArg JobError.validation (message_deepPayload levels)⟩

/-- A payload of 33 containers, the last one an empty list, is one level too deep. -/
theorem check_finds_first_of_deep :
    let payload : Fields := [("a", (fun v => Json.arr [v])^[31] (.arr []))]
    (create "q" "t" payload).check = .error (.deepPayload 33) ∧
      ¬ (create "q" "t" payload).Proper ∧ Json.LongestNesting (.obj payload) 33 := by
  intro payload
  have hdeep : (create "q" "t" payload).check = .error (.deepPayload 33) := by decide +kernel
  obtain ⟨hproper, -, -, hlevels⟩ := check_finds_first (create "q" "t" payload)
  refine ⟨hdeep, fun h => ?_, (hlevels 33 hdeep).1⟩
  rw [hproper.2 h] at hdeep
  cases hdeep

/-- A request with three faults is refused for the first: the name of the queue is too long in bytes
before it is looked at letter by letter. -/
example : (Request.create (String.ofList (List.replicate 33 'é')) "" []).check =
    .error (.longName .queue 66) := by decide +kernel

end Request

end JobQueue
