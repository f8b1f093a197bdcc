import Mathlib.Data.Nat.Notation
import Mathlib.Order.Nat
import Teleprompter.JsonValues
import Teleprompter.PushService
import Teleprompter.VersionOrder
import Teleprompter.WorktreeList

/-!
# Retries of the push client

A push is tried a bounded number of times. One try ends in a result whose
failure is described by a text, and the loop decides by that text whether to
try again and how long to wait before. Beside it stands the policy that the
client documents, which looks at how a try ended and not at the text.
-/

namespace Teleprompter.PushRetries

open DaemonLock (decimal)
open FiniteDictionary JsonValues PushService
open VersionOrder (parseU64)
open WorktreeList (stripPrefix stripPrefix_append)

section Retrying

variable {retries : ℕ → Bool}

/-- Number of tries of a loop that may try `limit` times from try `start` on. -/
def triesFrom (retries : ℕ → Bool) : ℕ → ℕ → ℕ
  | 0, _ => 0
  | limit + 1, start =>
    if retries start = true then triesFrom retries limit (start + 1) + 1 else 1

theorem triesFrom_le (limit start : ℕ) : triesFrom retries limit start ≤ limit := by
  induction limit generalizing start with
  | zero => exact le_refl 0
  | succ limit ih =>
    have hnext := ih (start + 1)
    rw [triesFrom]
    split <;> omega

theorem triesFrom_pos {limit : ℕ} (h : 0 < limit) (start : ℕ) :
    0 < triesFrom retries limit start := by
  obtain ⟨n, rfl⟩ : ∃ n, limit = n + 1 := ⟨limit - 1, by omega⟩
  rw [triesFrom]
  split <;> omega

/-- A try is made when all tries before it ask for another one. -/
theorem lt_triesFrom_iff {limit start k : ℕ} :
    k < triesFrom retries limit start ↔
      k < limit ∧ ∀ j, j < k → retries (start + j) = true := by
  induction limit generalizing start k with
  | zero => simp [triesFrom]
  | succ limit ih =>
    rw [triesFrom]
    cases k with
    | zero =>
      simp only [Nat.zero_lt_succ, Nat.not_lt_zero, false_imp_iff, implies_true, and_self, iff_true]
      split <;> omega
    | succ k =>
      split
      · next hfirst =>
        rw [Nat.succ_lt_succ_iff, ih, Nat.succ_lt_succ_iff]
        refine and_congr_right fun _ => ⟨fun h j hj => ?_, fun h j hj => ?_⟩
        · cases j with
          | zero => exact hfirst
          | succ j =>
            have hj' := h j (by omega)
            rwa [Nat.add_right_comm] at hj'
        · have hj' := h (j + 1) (by omega)
          rwa [← Nat.add_assoc, Nat.add_right_comm] at hj'
      · next hfirst =>
        refine iff_of_false (by omega) fun h => hfirst ?_
        exact h.2 0 (by omega)

/-- A made try is followed by another one when it asks for it and one is left. -/
theorem succ_lt_triesFrom_iff {limit start k : ℕ} (h : k < triesFrom retries limit start) :
    k + 1 < triesFrom retries limit start ↔ retries (start + k) = true ∧ k + 1 < limit := by
  obtain ⟨-, hbefore⟩ := lt_triesFrom_iff.mp h
  rw [lt_triesFrom_iff]
  constructor
  · exact fun hnext => ⟨hnext.2 k (by omega), hnext.1⟩
  · rintro ⟨hk, hlimit⟩
    refine ⟨hlimit, fun j hj => ?_⟩
    obtain hlt | rfl : j < k ∨ j = k := by omega
    · exact hbefore j hlt
    · exact hk

end Retrying

section Model

/-- Configuration of the client. -/
structure ApnsClientConfig where
  host : String
  bundleId : String
  maxRetries : UInt32
  retryBaseMs : UInt64
  /-- Zero stands for no deadline. -/
  requestTimeoutMs : UInt64

structure TransportRequest where
  url : String
  headers : Dict String String
  body : String

structure TransportResponse where
  status : UInt16
  /-- The header, when there is one. -/
  retryAfter : Option String
  body : List UInt8

/-- What one try meets outside of the client. -/
structure Surroundings where
  /-- A signed token, or why there is none. -/
  jwt : Except String String
  /-- What the transport answers in the end. -/
  answer : Except String TransportResponse
  /-- The deadline, if there is one, passes before the answer. -/
  late : Bool
  /-- Random bytes. -/
  random : UInt64

/-- Reading and writing of JSON, and the quoted form of a text. -/
structure Codecs where
  fromSlice : List UInt8 → Option Json
  toText : Json → String
  quoted : String → String

variable (codecs : Codecs) (config : ApnsClientConfig)

def apnsDeadTokenReasons : List String := ["Unregistered", "BadDeviceToken"]

/-- Exactly 64 lower-case hexadecimal digits. -/
def isValidDeviceToken (token : String) : Bool :=
  token.utf8ByteSize = 64 &&
    token.toList.all fun c => ('0' ≤ c && c ≤ '9') || ('a' ≤ c && c ≤ 'f')

def isTimeSensitive (payload : ApnsPayload) : Bool :=
  payload.interruptionLevel.any fun level =>
    level.toList.map Char.toLower = "time-sensitive".toList

/-- The alert, set last into the forwarded data. -/
def apnsBody (payload : ApnsPayload) : Json :=
  let alert := Json.object [("title", .string payload.title), ("body", .string payload.body)]
  let level := payload.interruptionLevel.toList.map fun level =>
    ("interruption-level", Json.string level)
  let aps := Json.object ([("alert", alert), ("sound", .string "default")] ++ level)
  let data := (payload.data.map fun data => data.entries).getD []
  let fields := (data.filter fun entry => entry.1 ≠ "aps").map fun entry =>
    (entry.1, Json.string entry.2)
  .object (fields ++ [("aps", aps)])

def apnsRequest (payload : ApnsPayload) (jwt : String) : TransportRequest :=
  let headers : Dict String String := (((AList.insert "authorization" ("bearer " ++ jwt) ∅).insert
    "apns-topic" config.bundleId).insert "apns-push-type" "alert").insert
      "content-type" "application/json"
  { url := "https://" ++ config.host ++ "/3/device/" ++ payload.deviceToken
    headers := if isTimeSensitive payload then headers.insert "apns-priority" "10" else headers
    body := codecs.toText (apnsBody payload) }

/-- Decimal digits of a number. -/
def digits (n : ℕ) : List Char := Nat.toDigits 10 n

/-- The reason code in the body of a response. -/
def jsonReason (resp : TransportResponse) : Option String :=
  (codecs.fromSlice resp.body).bind fun v =>
    (v.asObject.bind fun object => object.get "reason").bind Json.asStr

/-- The status with the reason code behind it. -/
def statusReason (status : UInt16) (reason : Option String) : String :=
  match reason with
  | some jr => String.ofList ("HTTP ".toList ++ digits status.toNat ++ ": ".toList ++ jr.toList)
  | none => String.ofList ("HTTP ".toList ++ digits status.toNat)

/-- The result of a response. -/
def interpretResponse (resp : TransportResponse) : ApnsDeliveryResult :=
  if resp.status = 200 then .ok
  else
    let reason := jsonReason codecs resp
    let deadToken := reason.any fun r => apnsDeadTokenReasons.contains r
    if deadToken = true then .err true (reason.getD (statusReason resp.status none))
    else if resp.status = 429 then
      match resp.retryAfter.bind fun s => parseU64 s.toList with
      | some secs => .err false (String.ofList ("HTTP 429 retry-after:".toList ++ digits secs))
      | none => .err false (statusReason resp.status reason)
    else .err false (statusReason resp.status reason)

/-- One try: the request, if one went out, and the result. -/
def sendOnce (payload : ApnsPayload) (outside : Surroundings) :
    Option TransportRequest × ApnsDeliveryResult :=
  match outside.jwt with
  | .error e => (none, .err false ("jwt-error: " ++ e))
  | .ok jwt =>
    if isValidDeviceToken payload.deviceToken = false then
      (none, .err false ("invalid-device-token: expected 64 lowercase hex chars, got " ++
        codecs.quoted payload.deviceToken))
    else
      let req := apnsRequest codecs config payload jwt
      let sendResult :=
        if config.requestTimeoutMs ≠ 0 ∧ outside.late = true then
          .error (String.ofList ("request-timeout after ".toList ++
            digits config.requestTimeoutMs.toNat ++ "ms".toList))
        else outside.answer
      match sendResult with
      | .error e => (some req, .err false e)
      | .ok resp => (some req, interpretResponse codecs resp)

/-- The seconds that a reason text carries. -/
def parseRetryAfterReason (reason : String) : Option ℕ :=
  (stripPrefix "HTTP 429 retry-after:".toList reason.toList).bind parseU64

/-- A reason text of a failure that is not tried again. -/
def isNonRetryableReason (reason : String) : Bool :=
  match stripPrefix "HTTP ".toList reason.toList with
  | none => false
  | some rest =>
    let status := ((decimal (rest.takeWhile Char.isDigit)).filter fun n => n < 2 ^ 16).getD 0
    if status = 429 ∨ (500 ≤ status ∧ status < 600) then false
    else 400 ≤ status ∧ status < 500

/-- The exponential delay in milliseconds, with a random part. -/
def exponentialDelay (attempt : ℕ) (random : UInt64) : ℕ :=
  let largest := 2 ^ 64 - 1
  let multiplier := if attempt < 64 then 2 ^ attempt else largest
  let exp := min (config.retryBaseMs.toNat * multiplier) largest
  let jitter := random.toNat % max config.retryBaseMs.toNat 1
  min (exp + jitter) largest

/-- The delay in milliseconds before the next try. -/
def backoffDelay (attempt : ℕ) (reason : String) (random : UInt64) : ℕ :=
  match parseRetryAfterReason reason with
  | some secs => secs * 1000
  | none => exponentialDelay config attempt random

/-- Number of tries at most. The sum saturates. -/
def maxAttempts : ℕ := min (config.maxRetries.toNat + 1) (2 ^ 32 - 1)

/-- A try that was made, and the delay behind it. -/
structure AttemptRecord where
  request : Option TransportRequest
  result : ApnsDeliveryResult
  /-- Milliseconds slept before the next try, if there was one. -/
  delay : Option ℕ

/-- What a push ends in, and the tries behind it. -/
structure SendReport where
  result : ApnsDeliveryResult
  attempts : List AttemptRecord

/-- The loop from a try on, with the number of values left in its range. -/
def sendFrom (payload : ApnsPayload) (outside : ℕ → Surroundings) :
    ℕ → ℕ → ApnsDeliveryResult → SendReport
  | 0, _, lastErr => ⟨lastErr, []⟩
  | remaining + 1, attempt, _ =>
    let once := sendOnce codecs config payload (outside attempt)
    match once.2 with
    | .ok => ⟨.ok, [⟨once.1, .ok, none⟩]⟩
    | .err deadToken reason =>
      if deadToken = true ∨ isNonRetryableReason reason = true then
        ⟨.err deadToken reason, [⟨once.1, .err deadToken reason, none⟩]⟩
      else if maxAttempts config ≤ attempt + 1 then
        ⟨.err deadToken reason, [⟨once.1, .err deadToken reason, none⟩]⟩
      else
        let delay := backoffDelay config attempt reason (outside attempt).random
        let rest := sendFrom payload outside remaining (attempt + 1) (.err deadToken reason)
        ⟨rest.result, ⟨once.1, .err deadToken reason, some delay⟩ :: rest.attempts⟩

/-- A push. -/
def send (payload : ApnsPayload) (outside : ℕ → Surroundings) : SendReport :=
  sendFrom codecs config payload outside (maxAttempts config) 0 (.err false "no attempts made")

end Model

section Policy

variable (codecs : Codecs) (config : ApnsClientConfig) (payload : ApnsPayload)

/-- How a try ended. -/
inductive Ending where
  /-- No token could be signed. -/
  | unsigned
  /-- The device token is no device token. -/
  | rejected
  /-- The transport failed, or the deadline passed. -/
  | failed
  | replied (resp : TransportResponse)

def ending (outside : Surroundings) : Ending :=
  match outside.jwt with
  | .error _ => .unsigned
  | .ok _ =>
    if isValidDeviceToken payload.deviceToken = false then .rejected
    else if config.requestTimeoutMs ≠ 0 ∧ outside.late = true then .failed
    else match outside.answer with
      | .error _ => .failed
      | .ok resp => .replied resp

/-- A reply whose reason code says that the device token is dead. -/
def IsDeadReply (resp : TransportResponse) : Prop :=
  ∃ r ∈ jsonReason codecs resp, r ∈ apnsDeadTokenReasons

/-- After which endings a push is to be tried again. -/
def Ending.Retriable : Ending → Prop
  | .failed => True
  | .replied resp =>
    (resp.status = 429 ∨ 500 ≤ resp.status.toNat ∧ resp.status.toNat < 600) ∧
      ¬ IsDeadReply codecs resp
  | _ => False

/-- The seconds that a reply asks to wait. -/
def Ending.retryAfter : Ending → Option ℕ
  | .replied resp => resp.retryAfter.bind fun s => parseU64 s.toList
  | _ => none

/-- A push obeys the policy. -/
structure Disciplined (outside : ℕ → Surroundings) (report : SendReport) : Prop where
  bounded : report.attempts.length ≤ config.maxRetries.toNat + 1
  /-- A further try is made after a retriable ending while retries remain, and only then. -/
  further : ∀ i, i < report.attempts.length →
    (i + 1 < report.attempts.length ↔
      (ending config payload (outside i)).Retriable codecs ∧ i < config.maxRetries.toNat)
  /-- Success is the success of the last try. -/
  success : report.result = .ok ↔ ∃ resp, report.attempts ≠ [] ∧
    ending config payload (outside (report.attempts.length - 1)) = .replied resp ∧
      resp.status = 200
  /-- A dead token is reported for a reason code that says so. -/
  dead : ∀ reason, report.result = .err true reason → reason ∈ apnsDeadTokenReasons
  /-- The delay behind a retried reply is what the reply asks for. -/
  delay : ∀ i record, report.attempts[i]? = some record → i + 1 < report.attempts.length →
    ∀ secs, (ending config payload (outside i)).retryAfter = some secs →
      record.delay = some (secs * 1000)

end Policy

section Reasons

theorem digits_isDigit (n : ℕ) : ∀ c ∈ digits n, c.isDigit = true := fun _ hc =>
  Nat.isDigit_of_mem_toDigits (by decide) (by decide) hc

/-- Written digits are read back. -/
theorem decimal_digits (n : ℕ) : decimal (digits n) = some n := by
  have hne : digits n ≠ [] := Nat.toDigits_ne_nil
  rw [decimal, if_pos ⟨hne, List.all_eq_true.mpr (digits_isDigit n)⟩, digits,
    Nat.ofDigitChars_ten_toDigits]

theorem parseU64_digits {n : ℕ} (h : n < 2 ^ 64) : parseU64 (digits n) = some n := by
  have hnumber : VersionOrder.NumberText (digits n) n :=
    ⟨Nat.toDigits_ne_nil, digits_isDigit n, Nat.ofDigitChars_ten_toDigits, h⟩
  exact (VersionOrder.numberText_iff.mp hnumber).2

theorem lt_of_parseU64 {text : List Char} {n : ℕ} (h : parseU64 text = some n) : n < 2 ^ 64 := by
  unfold parseU64 at h
  exact of_decide_eq_true (Option.filter_eq_some_iff.mp h).2

/-- A colon is no digit. -/
theorem head?_colon (text : List Char) : (": ".toList ++ text).head?.any Char.isDigit = false := by
  have hcolon : ": ".toList = [':', ' '] := by decide
  rw [hcolon]
  rfl

/-- The digits of a status end where something else begins. -/
theorem takeWhile_digits (n : ℕ) {tail : List Char} (h : tail.head?.any Char.isDigit = false) :
    (digits n ++ tail).takeWhile Char.isDigit = digits n := by
  rw [List.takeWhile_append_of_pos (digits_isDigit n)]
  cases tail with
  | nil => rw [List.takeWhile_nil, List.append_nil]
  | cons c tail => rw [List.takeWhile_cons_of_neg (by simpa using h), List.append_nil]

/-- The status survives the detour through the text. -/
theorem isNonRetryableReason_status {status : ℕ} (hstatus : status < 2 ^ 16) {tail : List Char}
    (htail : tail.head?.any Char.isDigit = false) :
    isNonRetryableReason (String.ofList ("HTTP ".toList ++ (digits status ++ tail))) = true ↔
      status ≠ 429 ∧ 400 ≤ status ∧ status < 500 := by
  have hlist : (String.ofList ("HTTP ".toList ++ (digits status ++ tail))).toList =
      "HTTP ".toList ++ (digits status ++ tail) := String.toList_ofList
  rw [isNonRetryableReason, hlist, stripPrefix_append]
  simp only [takeWhile_digits status htail, decimal_digits, Option.filter_some, hstatus,
    decide_true, if_true, Option.getD_some]
  split
  · simp only [Bool.false_eq_true, false_iff]
    omega
  · simp only [decide_eq_true_eq]
    omega

theorem statusReason_none (status : UInt16) :
    statusReason status none = String.ofList ("HTTP ".toList ++ digits status.toNat) := rfl

theorem statusReason_some (status : UInt16) (jr : String) : statusReason status (some jr) =
    String.ofList ("HTTP ".toList ++ digits status.toNat ++ ": ".toList ++ jr.toList) := rfl

/-- A status text is the status and something that does not begin with a digit. -/
theorem statusReason_eq (status : UInt16) (reason : Option String) :
    ∃ tail, statusReason status reason =
      String.ofList ("HTTP ".toList ++ (digits status.toNat ++ tail)) ∧
        tail.head?.any Char.isDigit = false := by
  cases reason with
  | none =>
    have htext : statusReason status none =
        String.ofList ("HTTP ".toList ++ (digits status.toNat ++ [])) := by
      rw [List.append_nil (digits status.toNat), statusReason_none]
    exact Exists.intro [] ⟨htext, rfl⟩
  | some jr =>
    have htext : statusReason status (some jr) = String.ofList
        ("HTTP ".toList ++ (digits status.toNat ++ (": ".toList ++ jr.toList))) := by
      rw [statusReason_some]
      simp only [List.append_assoc]
    exact Exists.intro (": ".toList ++ jr.toList) ⟨htext, head?_colon _⟩

theorem isNonRetryableReason_statusReason (status : UInt16) (reason : Option String) :
    isNonRetryableReason (statusReason status reason) = true ↔
      status.toNat ≠ 429 ∧ 400 ≤ status.toNat ∧ status.toNat < 500 := by
  obtain ⟨tail, htext, htail⟩ := statusReason_eq status reason
  rw [htext, isNonRetryableReason_status status.toNat_lt htail]

/-- The seconds survive the detour through the text. -/
theorem parseRetryAfterReason_secs {secs : ℕ} (h : secs < 2 ^ 64) :
    parseRetryAfterReason (String.ofList ("HTTP 429 retry-after:".toList ++ digits secs)) =
      some secs := by
  have hlist : (String.ofList ("HTTP 429 retry-after:".toList ++ digits secs)).toList =
      "HTTP 429 retry-after:".toList ++ digits secs := String.toList_ofList
  rw [parseRetryAfterReason, hlist, stripPrefix_append, Option.bind_some, parseU64_digits h]

/-- The text of waiting seconds is one of status 429. -/
theorem isNonRetryableReason_secs (secs : ℕ) : isNonRetryableReason
    (String.ofList ("HTTP 429 retry-after:".toList ++ digits secs)) = false := by
  have hsplit : "HTTP 429 retry-after:".toList =
      "HTTP ".toList ++ (digits 429 ++ " retry-after:".toList) := by decide
  have hspace : (" retry-after:".toList ++ digits secs).head?.any Char.isDigit = false := by
    have hhead : " retry-after:".toList = ' ' :: "retry-after:".toList := by decide
    rw [hhead]
    rfl
  rw [hsplit, List.append_assoc, List.append_assoc, ← Bool.not_eq_true,
    isNonRetryableReason_status (by decide) hspace]
  omega

/-- Another status carries no seconds. -/
theorem parseRetryAfterReason_statusReason {status : UInt16} (h : status.toNat ≠ 429)
    (reason : Option String) : parseRetryAfterReason (statusReason status reason) = none := by
  obtain ⟨tail, htext, htail⟩ := statusReason_eq status reason
  have hlist : (String.ofList ("HTTP ".toList ++ (digits status.toNat ++ tail))).toList =
      "HTTP ".toList ++ (digits status.toNat ++ tail) := String.toList_ofList
  have hsplit : "HTTP 429 retry-after:".toList =
      "HTTP ".toList ++ ("429".toList ++ " retry-after:".toList) := by decide
  have hno : ¬ "HTTP 429 retry-after:".toList <+:
      "HTTP ".toList ++ (digits status.toNat ++ tail) := by
    rw [hsplit, List.prefix_append_right_inj]
    rintro ⟨rest, hrest⟩
    have hdigits := congrArg (List.takeWhile Char.isDigit) hrest
    rw [takeWhile_digits _ htail] at hdigits
    have hnumber : digits status.toNat = ['4', '2', '9'] := hdigits.symm
    have hvalue := decimal_digits status.toNat
    rw [hnumber] at hvalue
    have h429 : decimal ['4', '2', '9'] = some 429 := by decide
    rw [h429] at hvalue
    exact h (Option.some.inj hvalue).symm
  rw [parseRetryAfterReason, htext, hlist, stripPrefix, if_neg hno, Option.bind_none]

end Reasons

section Tries

variable (codecs : Codecs) (config : ApnsClientConfig) (payload : ApnsPayload)

/-- A result that the loop tries again, if it may. -/
def asksAgain : ApnsDeliveryResult → Bool
  | .ok => false
  | .err deadToken reason => !deadToken && !isNonRetryableReason reason

/-- The text of a transport failure. -/
def failureText (outside : Surroundings) : String :=
  if config.requestTimeoutMs ≠ 0 ∧ outside.late = true then
    String.ofList ("request-timeout after ".toList ++ digits config.requestTimeoutMs.toNat ++
      "ms".toList)
  else match outside.answer with
    | .error e => e
    | .ok _ => ""

/-- A text that does not begin as a status text is tried again. -/
theorem isNonRetryableReason_of_head {reason : String} (h : reason.toList.head? ≠ some 'H') :
    isNonRetryableReason reason = false := by
  have hno : ¬ "HTTP ".toList <+: reason.toList := by
    rintro ⟨rest, hrest⟩
    rw [← hrest] at h
    exact h rfl
  rw [isNonRetryableReason, stripPrefix, if_neg hno]

theorem isDeadReply_iff {resp : TransportResponse} : IsDeadReply codecs resp ↔
    ((jsonReason codecs resp).any fun r => apnsDeadTokenReasons.contains r) = true := by
  rw [IsDeadReply]
  cases jsonReason codecs resp with
  | none => simp
  | some r => simp

/-- A reply as the loop sees it: success, a dead token or its status. -/
theorem interpretResponse_cases (resp : TransportResponse) :
    (resp.status = 200 ∧ interpretResponse codecs resp = .ok) ∨
    (resp.status ≠ 200 ∧ IsDeadReply codecs resp ∧ ∃ r ∈ apnsDeadTokenReasons,
      interpretResponse codecs resp = .err true r) ∨
    (resp.status ≠ 200 ∧ ¬ IsDeadReply codecs resp ∧ ∃ reason,
      interpretResponse codecs resp = .err false reason ∧
      (isNonRetryableReason reason = true ↔
        resp.status.toNat ≠ 429 ∧ 400 ≤ resp.status.toNat ∧ resp.status.toNat < 500) ∧
      (resp.status.toNat ≠ 429 → parseRetryAfterReason reason = none) ∧
      (resp.status.toNat = 429 → ∀ secs, (resp.retryAfter.bind fun s => parseU64 s.toList) =
        some secs → parseRetryAfterReason reason = some secs)) := by
  by_cases h200 : resp.status = 200
  · exact .inl ⟨h200, by rw [interpretResponse, if_pos h200]⟩
  by_cases hdead : IsDeadReply codecs resp
  · refine .inr (.inl ⟨h200, hdead, ?_⟩)
    have hany := (isDeadReply_iff codecs).mp hdead
    obtain ⟨r, hr, hmem⟩ := hdead
    refine ⟨r, hmem, ?_⟩
    simp only [interpretResponse, if_neg h200, if_pos hany]
    rw [Option.mem_def.mp hr, Option.getD_some]
  · refine .inr (.inr ⟨h200, hdead, ?_⟩)
    have hany := (isDeadReply_iff codecs).not.mp hdead
    have h429 : resp.status = 429 ↔ resp.status.toNat = 429 := UInt16.toNat_inj.symm
    simp only [interpretResponse, if_neg h200, if_neg hany]
    by_cases hstatus : resp.status = 429
    · rw [if_pos hstatus]
      have hnat := h429.mp hstatus
      cases hsecs : resp.retryAfter.bind fun s => parseU64 s.toList with
      | none =>
        refine ⟨_, rfl, isNonRetryableReason_statusReason _ _, fun h => absurd hnat h, ?_⟩
        intro _ secs h
        cases h
      | some secs =>
        obtain ⟨text, -, hparse⟩ := Option.bind_eq_some_iff.mp hsecs
        refine ⟨_, rfl, ?_, fun h => absurd hnat h, ?_⟩
        · rw [isNonRetryableReason_secs]
          simp [hnat]
        · intro _ secs' h
          cases h
          exact parseRetryAfterReason_secs (lt_of_parseU64 hparse)
    · rw [if_neg hstatus]
      refine ⟨_, rfl, isNonRetryableReason_statusReason _ _,
        fun h => parseRetryAfterReason_statusReason h _, ?_⟩
      exact fun h => absurd (h429.mpr h) hstatus

/-- What the loop makes of each ending. -/
theorem sendOnce_ending (outside : Surroundings) :
    match ending config payload outside with
    | .unsigned | .rejected => ∃ reason,
        (sendOnce codecs config payload outside).2 = .err false reason ∧
          isNonRetryableReason reason = false
    | .failed => (sendOnce codecs config payload outside).2 =
        .err false (failureText config outside)
    | .replied resp => (sendOnce codecs config payload outside).2 =
        interpretResponse codecs resp := by
  rw [ending, sendOnce]
  cases outside.jwt with
  | error e =>
    refine ⟨_, rfl, isNonRetryableReason_of_head ?_⟩
    rw [String.toList_append, List.head?_append_of_ne_nil _ (by decide)]
    decide
  | ok jwt =>
    by_cases htoken : isValidDeviceToken payload.deviceToken = false
    · simp only [if_pos htoken]
      refine ⟨_, rfl, isNonRetryableReason_of_head ?_⟩
      rw [String.toList_append, List.head?_append_of_ne_nil _ (by decide)]
      decide
    · simp only [if_neg htoken, failureText]
      by_cases hlate : config.requestTimeoutMs ≠ 0 ∧ outside.late = true
      · simp only [if_pos hlate]
      · simp only [if_neg hlate]
        cases outside.answer with
        | error e => rfl
        | ok resp => rfl

end Tries

section Loop

variable (codecs : Codecs) (config : ApnsClientConfig) (payload : ApnsPayload)
  (outside : ℕ → Surroundings)

/-- Whether the loop asks for another try behind a try. -/
def retriesAt (i : ℕ) : Bool := asksAgain (sendOnce codecs config payload (outside i)).2

/-- The text that the delay is computed from. -/
def reasonOf : ApnsDeliveryResult → String
  | .ok => ""
  | .err _ reason => reason

/-- The record of a try, with a delay behind it or without. -/
def recordAt (i : ℕ) (slept : Bool) : AttemptRecord :=
  let once := sendOnce codecs config payload (outside i)
  ⟨once.1, once.2, if slept = true then
    some (backoffDelay config i (reasonOf once.2) (outside i).random) else none⟩

variable {codecs config payload outside}

/-- A try that asks for no other one, or is the last one allowed, ends the loop. -/
theorem sendFrom_stop {remaining attempt : ℕ} (lastErr : ApnsDeliveryResult)
    (h : retriesAt codecs config payload outside attempt = false ∨
      maxAttempts config ≤ attempt + 1) :
    sendFrom codecs config payload outside (remaining + 1) attempt lastErr =
      ⟨(sendOnce codecs config payload (outside attempt)).2,
        [recordAt codecs config payload outside attempt false]⟩ := by
  rw [retriesAt] at h
  rw [sendFrom, recordAt]
  cases hresult : (sendOnce codecs config payload (outside attempt)).2 with
  | ok => rfl
  | err deadToken reason =>
    dsimp only
    by_cases hfinal : deadToken = true ∨ isNonRetryableReason reason = true
    · rw [if_pos hfinal]
      rfl
    · have hlast : maxAttempts config ≤ attempt + 1 := by
        refine h.resolve_left ?_
        rw [hresult, asksAgain]
        simpa [not_or] using hfinal
      rw [if_neg hfinal, if_pos hlast]
      rfl

/-- Otherwise the loop sleeps and goes on. -/
theorem sendFrom_retry {remaining attempt : ℕ} (lastErr : ApnsDeliveryResult)
    (h : retriesAt codecs config payload outside attempt = true)
    (hmore : attempt + 1 < maxAttempts config) :
    sendFrom codecs config payload outside (remaining + 1) attempt lastErr =
      let rest := sendFrom codecs config payload outside remaining (attempt + 1)
        (sendOnce codecs config payload (outside attempt)).2
      ⟨rest.result, recordAt codecs config payload outside attempt true :: rest.attempts⟩ := by
  rw [retriesAt] at h
  rw [sendFrom, recordAt]
  cases hresult : (sendOnce codecs config payload (outside attempt)).2 with
  | ok => rw [hresult] at h; cases h
  | err deadToken reason =>
    rw [hresult, asksAgain, Bool.and_eq_true, Bool.not_eq_true', Bool.not_eq_true'] at h
    dsimp only
    rw [if_neg (by simp [h]), if_neg (by omega)]
    rfl

/-- The loop makes the tries of a bounded retry loop, sleeps between them and
returns the result of the last one. -/
theorem sendFrom_eq (remaining attempt : ℕ) (lastErr : ApnsDeliveryResult)
    (h : attempt + (remaining + 1) = maxAttempts config) :
    let tries := triesFrom (retriesAt codecs config payload outside) (remaining + 1) attempt
    let report := sendFrom codecs config payload outside (remaining + 1) attempt lastErr
    report.attempts = (List.range tries).map (fun k =>
        recordAt codecs config payload outside (attempt + k) (decide (k + 1 < tries))) ∧
      report.result = (sendOnce codecs config payload (outside (attempt + (tries - 1)))).2 := by
  induction remaining generalizing attempt lastErr with
  | zero =>
    have hone : triesFrom (retriesAt codecs config payload outside) (0 + 1) attempt = 1 := by
      rw [triesFrom, triesFrom]
      split <;> rfl
    rw [hone, sendFrom_stop lastErr (.inr (by omega))]
    exact ⟨rfl, rfl⟩
  | succ remaining ih =>
    cases hretry : retriesAt codecs config payload outside attempt with
    | false =>
      have hone : triesFrom (retriesAt codecs config payload outside) (remaining + 1 + 1)
          attempt = 1 := by
        rw [triesFrom, if_neg (by simp [hretry])]
      rw [hone, sendFrom_stop lastErr (.inl hretry)]
      exact ⟨rfl, rfl⟩
    | true =>
      obtain ⟨hattempts, hresult⟩ := ih (attempt + 1)
        (sendOnce codecs config payload (outside attempt)).2 (by omega)
      have hpos : 0 < triesFrom (retriesAt codecs config payload outside) (remaining + 1)
          (attempt + 1) := triesFrom_pos (by omega) _
      rw [sendFrom_retry lastErr hretry (by omega), triesFrom, if_pos hretry]
      generalize triesFrom (retriesAt codecs config payload outside) (remaining + 1)
        (attempt + 1) = tries at hattempts hresult hpos
      dsimp only
      rw [hattempts, hresult]
      constructor
      · rw [List.range_succ_eq_map, List.map_cons, List.map_map]
        have hslept : decide (0 + 1 < tries + 1) = true := decide_eq_true (by omega)
        rw [hslept]
        refine congrArg₂ List.cons rfl (List.map_congr_left fun k _ => ?_)
        have hshift : attempt + 1 + k = attempt + (k + 1) := by omega
        have hdecide : decide (k + 1 < tries) = decide (k + 1 + 1 < tries + 1) :=
          decide_eq_decide.mpr (by omega)
        rw [hshift, hdecide]
        rfl
      · have hshift : attempt + 1 + (tries - 1) = attempt + (tries + 1 - 1) := by omega
        rw [hshift]

/-- Tries of a push. -/
def tries (codecs : Codecs) (config : ApnsClientConfig) (payload : ApnsPayload)
    (outside : ℕ → Surroundings) : ℕ :=
  triesFrom (retriesAt codecs config payload outside) (maxAttempts config) 0

theorem maxAttempts_pos (config : ApnsClientConfig) : 0 < maxAttempts config := by
  rw [maxAttempts]
  omega

theorem tries_pos : 0 < tries codecs config payload outside :=
  triesFrom_pos (maxAttempts_pos config) 0

theorem send_eq :
    (send codecs config payload outside).attempts =
        (List.range (tries codecs config payload outside)).map (fun k =>
          recordAt codecs config payload outside k
            (decide (k + 1 < tries codecs config payload outside))) ∧
      (send codecs config payload outside).result = (sendOnce codecs config payload
        (outside (tries codecs config payload outside - 1))).2 := by
  have hpos := maxAttempts_pos config
  obtain ⟨n, hn⟩ : ∃ n, maxAttempts config = n + 1 := ⟨maxAttempts config - 1, by omega⟩
  have hloop := @sendFrom_eq codecs config payload outside n 0
    (.err false "no attempts made") (by rw [Nat.zero_add, hn])
  rw [send, tries, hn]
  simpa only [Nat.zero_add] using hloop

theorem send_length :
    (send codecs config payload outside).attempts.length =
      tries codecs config payload outside := by
  rw [send_eq.1, List.length_map, List.length_range]

end Loop

section Discipline

variable (codecs : Codecs) (config : ApnsClientConfig) (payload : ApnsPayload)
  (outside : ℕ → Surroundings)

/-- The endings after which the loop does not try again. -/
def Ending.Stops : Ending → Prop
  | .replied resp => resp.status = 200 ∨ IsDeadReply codecs resp ∨
      400 ≤ resp.status.toNat ∧ resp.status.toNat < 500 ∧ resp.status.toNat ≠ 429
  | _ => False

/-- A try after which the loop does what the policy says. -/
structure RegularTry (i : ℕ) : Prop where
  /-- The text of a transport failure does not read as a status 4xx. -/
  failure : ending config payload (outside i) = .failed → i < config.maxRetries.toNat →
    isNonRetryableReason (failureText config (outside i)) = false
  /-- The saturated number of tries leaves room for the next one. -/
  room : (ending config payload (outside i)).Retriable codecs → i < config.maxRetries.toNat →
    i + 1 < 2 ^ 32 - 1
  /-- Where tries are left, an ending that is not retriable is a reply that the loop knows as such. -/
  final : ¬ (ending config payload (outside i)).Retriable codecs → i + 1 < maxAttempts config →
    (ending config payload (outside i)).Stops codecs
  /-- Only status 429 may ask for a delay that is not the exponential one. -/
  delay : ∀ resp secs, ending config payload (outside i) = .replied resp →
    (ending config payload (outside i)).Retriable codecs → i < config.maxRetries.toNat →
      resp.status ≠ 429 → (ending config payload (outside i)).retryAfter = some secs →
        exponentialDelay config i (outside i).random = secs * 1000

variable {codecs config payload outside} {i : ℕ}

theorem not_stops_of_retriable (h : (ending config payload (outside i)).Retriable codecs) :
    ¬ (ending config payload (outside i)).Stops codecs := by
  cases hend : ending config payload (outside i) with
  | unsigned | rejected | failed => exact id
  | replied resp =>
    rw [hend] at h
    obtain ⟨hstatus, hdead⟩ := h
    rintro (h200 | hd | h4)
    · rw [h200] at hstatus
      exact absurd hstatus (by decide)
    · exact hdead hd
    · rcases hstatus with h429 | h5
      · exact h4.2.2 (by rw [h429]; rfl)
      · omega

/-- The loop asks for another try unless the ending stops it or a failure text
reads as a status. -/
theorem retriesAt_iff : retriesAt codecs config payload outside i = true ↔
    ¬ (ending config payload (outside i)).Stops codecs ∧
      (ending config payload (outside i) = .failed →
        isNonRetryableReason (failureText config (outside i)) = false) := by
  have honce := sendOnce_ending codecs config payload (outside i)
  rw [retriesAt]
  cases hend : ending config payload (outside i) with
  | unsigned | rejected =>
    rw [hend] at honce
    obtain ⟨reason, hresult, hreason⟩ := honce
    rw [hresult, asksAgain, hreason]
    exact iff_of_true rfl ⟨id, fun h => nomatch h⟩
  | failed =>
    rw [hend] at honce
    rw [honce, asksAgain]
    simp [Ending.Stops]
  | replied resp =>
    rw [hend] at honce
    rw [honce, Ending.Stops]
    simp only [reduceCtorEq, false_imp_iff, and_true, not_or]
    obtain ⟨h200, hok⟩ | ⟨h200, hdead, r, -, herr⟩ | ⟨h200, hdead, reason, herr, hreason, -⟩ :=
      interpretResponse_cases codecs resp
    · rw [hok]
      simp [asksAgain, h200]
    · rw [herr]
      simp [asksAgain, hdead]
    · rw [herr, asksAgain, Bool.not_false, Bool.true_and, Bool.not_eq_true', ← Bool.not_eq_true,
        hreason]
      refine ⟨fun h => ⟨h200, hdead, fun h4 => h ⟨h4.2.2, h4.1, h4.2.1⟩⟩, fun h h4 => ?_⟩
      exact h.2.2 ⟨h4.2.1, h4.2.2, h4.1⟩

/-- The loop asks for a further try, and may make it, as the policy says, exactly
when the first three parts of regularity hold. -/
theorem further_iff : ((retriesAt codecs config payload outside i = true ∧
      i + 1 < maxAttempts config) ↔
        (ending config payload (outside i)).Retriable codecs ∧ i < config.maxRetries.toNat) ↔
    (ending config payload (outside i) = .failed → i < config.maxRetries.toNat →
      isNonRetryableReason (failureText config (outside i)) = false) ∧
    ((ending config payload (outside i)).Retriable codecs → i < config.maxRetries.toNat →
      i + 1 < 2 ^ 32 - 1) ∧
    (¬ (ending config payload (outside i)).Retriable codecs → i + 1 < maxAttempts config →
      (ending config payload (outside i)).Stops codecs) := by
  have hmax : i + 1 < maxAttempts config ↔
      i < config.maxRetries.toNat ∧ i + 1 < 2 ^ 32 - 1 := by
    rw [maxAttempts]
    omega
  rw [retriesAt_iff, hmax]
  by_cases hretriable : (ending config payload (outside i)).Retriable codecs
  · have hgoes := not_stops_of_retriable hretriable
    simp only [hgoes, hretriable, not_true_eq_false, false_imp_iff, and_true, true_and,
      not_false_eq_true, forall_const]
    tauto
  · have hfailed : ending config payload (outside i) ≠ .failed := by
      intro hfailed
      rw [hfailed] at hretriable
      exact hretriable trivial
    simp only [hretriable, hfailed, false_imp_iff, and_true, true_and, not_false_eq_true,
      forall_const, false_and, iff_false]
    tauto

/-- The delay behind a retried reply is as the policy says when it is a reply of
status 429 or the exponential delay happens to be as long. -/
theorem delay_iff (hretriable : (ending config payload (outside i)).Retriable codecs) :
    (∀ secs, (ending config payload (outside i)).retryAfter = some secs →
        (recordAt codecs config payload outside i true).delay = some (secs * 1000)) ↔
      ∀ resp secs, ending config payload (outside i) = .replied resp → resp.status ≠ 429 →
        (ending config payload (outside i)).retryAfter = some secs →
          exponentialDelay config i (outside i).random = secs * 1000 := by
  have honce := sendOnce_ending codecs config payload (outside i)
  cases hend : ending config payload (outside i) with
  | unsigned | rejected | failed => simp [Ending.retryAfter]
  | replied resp =>
    rw [hend] at honce hretriable
    obtain ⟨hstatus, hdead⟩ := hretriable
    have hone : (∀ resp' secs, Ending.replied resp = .replied resp' → resp'.status ≠ 429 →
        (Ending.replied resp).retryAfter = some secs →
          exponentialDelay config i (outside i).random = secs * 1000) ↔
        ∀ secs, resp.status ≠ 429 → (Ending.replied resp).retryAfter = some secs →
          exponentialDelay config i (outside i).random = secs * 1000 := by
      refine ⟨fun h secs => h resp secs rfl, fun h resp' secs hresp => ?_⟩
      cases hresp
      exact h secs
    rw [hone]
    obtain ⟨h200, -⟩ | ⟨-, hdead', -⟩ | ⟨h200, -, reason, herr, -, hplain, hsecs⟩ :=
      interpretResponse_cases codecs resp
    · rw [h200] at hstatus
      exact absurd hstatus (by decide)
    · exact absurd hdead' hdead
    · have hdelay : (recordAt codecs config payload outside i true).delay =
          some (backoffDelay config i reason (outside i).random) := by
        rw [recordAt, honce, herr]
        rfl
      rw [hdelay]
      have h429 : resp.status = 429 ↔ resp.status.toNat = 429 := UInt16.toNat_inj.symm
      by_cases hnat : resp.status.toNat = 429
      · have hkept : ∀ secs, (Ending.replied resp).retryAfter = some secs →
            some (backoffDelay config i reason (outside i).random) = some (secs * 1000) := by
          intro secs h
          rw [backoffDelay, hsecs hnat secs h]
        exact iff_of_true hkept fun _ h _ => absurd (h429.mpr hnat) h
      · have hexp : backoffDelay config i reason (outside i).random =
            exponentialDelay config i (outside i).random := by
          rw [backoffDelay, hplain hnat]
        rw [hexp]
        simp only [Option.some.injEq]
        exact ⟨fun h secs _ hs => h secs hs, fun h secs hs => h secs (fun h' => hnat (h429.mp h')) hs⟩

/-- The parts of the discipline that hold of every push. -/
theorem send_always (codecs : Codecs) (config : ApnsClientConfig) (payload : ApnsPayload)
    (outside : ℕ → Surroundings) :
    let report := send codecs config payload outside
    report.attempts.length ≤ config.maxRetries.toNat + 1 ∧
      (report.result = .ok ↔ ∃ resp, report.attempts ≠ [] ∧
        ending config payload (outside (report.attempts.length - 1)) = .replied resp ∧
          resp.status = 200) ∧
      ∀ reason, report.result = .err true reason → reason ∈ apnsDeadTokenReasons := by
  have hne : (send codecs config payload outside).attempts ≠ [] := by
    rw [← List.length_pos_iff, send_length]
    exact tries_pos
  have honce := sendOnce_ending codecs config payload
    (outside (tries codecs config payload outside - 1))
  dsimp only
  rw [send_length, send_eq.2]
  simp only [ne_eq, hne, not_false_eq_true, true_and]
  refine ⟨?_, ?_⟩
  · have hlimit : tries codecs config payload outside ≤ maxAttempts config := triesFrom_le _ _
    exact hlimit.trans (by rw [maxAttempts]; omega)
  · cases hend : ending config payload (outside (tries codecs config payload outside - 1)) with
    | unsigned | rejected =>
      rw [hend] at honce
      obtain ⟨reason, hresult, -⟩ := honce
      rw [hresult]
      simp
    | failed =>
      rw [hend] at honce
      rw [honce]
      simp
    | replied resp =>
      rw [hend] at honce
      rw [honce]
      obtain ⟨h200, hok⟩ | ⟨h200, -, r, hr, herr⟩ | ⟨h200, -, reason, herr, -⟩ :=
        interpretResponse_cases codecs resp
      · rw [hok]
        simp [h200]
      · rw [herr]
        simp [h200, hr]
      · rw [herr]
        simp [h200]

/-- A made try is followed by another one when the loop asks for it and may make it. -/
theorem succ_lt_tries_iff (h : i < tries codecs config payload outside) :
    i + 1 < tries codecs config payload outside ↔
      retriesAt codecs config payload outside i = true ∧ i + 1 < maxAttempts config := by
  have hnext := succ_lt_triesFrom_iff h
  rwa [Nat.zero_add] at hnext

/-- The record of a try that another one follows. -/
theorem eq_recordAt {record : AttemptRecord} (h : i + 1 < tries codecs config payload outside)
    (hrecord : (send codecs config payload outside).attempts[i]? = some record) :
    record = recordAt codecs config payload outside i true := by
  rw [send_eq.1, List.getElem?_map, List.getElem?_range (by omega), Option.map_some,
    decide_eq_true h] at hrecord
  exact (Option.some.inj hrecord).symm

/-- Regular tries are followed by another one as the policy says. -/
theorem further_of_regular (hregular : ∀ i,
      (∀ j, j < i → (ending config payload (outside j)).Retriable codecs) →
        RegularTry codecs config payload outside i)
    (h : i < tries codecs config payload outside) :
    i + 1 < tries codecs config payload outside ↔
      (ending config payload (outside i)).Retriable codecs ∧ i < config.maxRetries.toNat := by
  induction i using Nat.strong_induction_on with
  | _ i ih =>
    have hbefore : ∀ j, j < i → (ending config payload (outside j)).Retriable codecs :=
      fun j hj => ((ih j hj (by omega)).mp (by omega)).1
    have hi := hregular i hbefore
    rw [succ_lt_tries_iff h]
    exact further_iff.mpr ⟨hi.failure, hi.room, hi.final⟩

/-- A push obeys the policy exactly when every try is regular that the policy
comes to. -/
theorem send_disciplined_iff (codecs : Codecs) (config : ApnsClientConfig)
    (payload : ApnsPayload) (outside : ℕ → Surroundings) :
    Disciplined codecs config payload outside (send codecs config payload outside) ↔
      ∀ i, (∀ j, j < i → (ending config payload (outside j)).Retriable codecs) →
        RegularTry codecs config payload outside i := by
  constructor
  · intro hdisciplined i hbefore
    have hfurther := hdisciplined.further
    simp only [send_length] at hfurther
    by_cases hmax : config.maxRetries.toNat < i
    · refine ⟨fun _ hi => absurd hi (by omega), fun _ hi => absurd hi (by omega),
        fun _ hi => ?_, fun _ _ _ _ hi => absurd hi (by omega)⟩
      rw [maxAttempts] at hi
      omega
    · have hmade : ∀ k, k ≤ i → k < tries codecs config payload outside := by
        intro k hk
        induction k with
        | zero => exact tries_pos
        | succ k ih =>
          exact (hfurther k (ih (by omega))).mpr ⟨hbefore k (by omega), by omega⟩
      have hmadeAt := hmade i (le_refl i)
      have hiff := hfurther i hmadeAt
      rw [succ_lt_tries_iff hmadeAt] at hiff
      obtain ⟨hfailure, hroom, hfinal⟩ := further_iff.mp hiff
      refine ⟨hfailure, hroom, hfinal, fun resp secs hend hretriable hi => ?_⟩
      have hnext := (hfurther i hmadeAt).mpr ⟨hretriable, hi⟩
      refine (delay_iff hretriable).mp (fun secs hsecs => ?_) resp secs hend
      have hrecord : (send codecs config payload outside).attempts[i]? =
          some (recordAt codecs config payload outside i true) := by
        rw [send_eq.1, List.getElem?_map, List.getElem?_range hmadeAt, Option.map_some,
          decide_eq_true hnext]
      exact hdisciplined.delay i _ hrecord (by rw [send_length]; exact hnext) secs hsecs
  · intro hregular
    obtain ⟨hbounded, hsuccess, hdead⟩ := send_always codecs config payload outside
    have hfurther := fun i h => further_of_regular (i := i) hregular h
    refine ⟨hbounded, ?_, hsuccess, hdead, ?_⟩
    · rw [send_length]
      exact hfurther
    · intro i record hrecord hnext secs hsecs
      rw [send_length] at hnext
      obtain ⟨hretriable, hi⟩ := (hfurther i (by omega)).mp hnext
      have hbefore : ∀ j, j < i → (ending config payload (outside j)).Retriable codecs :=
        fun j hj => ((hfurther j (by omega)).mp (by omega)).1
      rw [eq_recordAt hnext hrecord]
      refine (delay_iff hretriable).mpr (fun resp secs hend h429 hsecs => ?_) secs hsecs
      exact (hregular i hbefore).delay resp secs hend hretriable hi h429 hsecs

/-- One retry is allowed. -/
def oneRetry : ApnsClientConfig := ⟨"api.push.apple.com", "dev.tpmt.app", 1, 500, 10000⟩

/-- Bodies without a reason code. -/
def plainCodecs : Codecs := ⟨fun _ => none, fun _ => "", id⟩

/-- A payload for a device token. -/
def payloadFor (token : String) : ApnsPayload := ⟨token, "", "", none, none⟩

/-- Every answer is an overloaded server that asks to wait for a minute. -/
def overloaded : Surroundings := ⟨.ok "", .ok ⟨503, some "60", []⟩, false, 0⟩

/-- A device token that is rejected without a request is tried again, and the delay
that an overloaded server asks for is not used. -/
theorem send_undisciplined :
    ¬ Disciplined plainCodecs oneRetry (payloadFor "x") (fun _ => overloaded)
        (send plainCodecs oneRetry (payloadFor "x") fun _ => overloaded) ∧
      ((send plainCodecs oneRetry (payloadFor "x") fun _ => overloaded).attempts.map
        fun record => record.request.isNone) = [true, true] ∧
      ((send plainCodecs oneRetry (payloadFor (String.ofList (List.replicate 64 'a')))
        fun _ => overloaded).attempts.map AttemptRecord.delay) = [some 500, none] := by
  refine ⟨fun h => ?_, by decide +kernel, by decide +kernel⟩
  have hlength : (send plainCodecs oneRetry (payloadFor "x")
      fun _ => overloaded).attempts.length = 2 := by decide +kernel
  have hrejected : ending oneRetry (payloadFor "x") overloaded = .rejected := by
    have htoken : isValidDeviceToken (payloadFor "x").deviceToken = false := by decide +kernel
    simp [ending, overloaded, htoken]
  have hfurther := (h.further 0 (by omega)).mp (by omega)
  rw [hrejected] at hfurther
  exact hfurther.1

end Discipline

end Teleprompter.PushRetries
