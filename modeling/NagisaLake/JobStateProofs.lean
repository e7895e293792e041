import NagisaLake.JsonProofs
import Mathlib.Data.Rat.Defs

/-! # Jobs and their events — the types both ends of the control channel share

`JobState` and its transition table are used unchanged by the worker's
journal and by the Hub.  `JobEvent` is what the worker emits and the Hub
acknowledges; `DispatchJob` is what the Hub sends.

Event sequences are `u64` on the wire and `BIGINT` in both databases, so
every stored sequence is `clampI64` of the one that was sent. -/

namespace Jobs

open JsonValue List

/-- `i64::MAX`. -/
def i64Max : Nat := 9223372036854775807

/-- `u64::MAX`. -/
def u64Max : Nat := 18446744073709551615

/-- `i64::try_from(n).unwrap_or(i64::MAX)` of a `u64`. -/
def clampI64 (n : Nat) : Nat := min n i64Max

/-- `n.saturating_add(1)` of a `u64`. -/
def saturatingSucc (n : Nat) : Nat := min (n + 1) u64Max

/-! ## Texts -/

/-- `char::is_whitespace`: the code points with the property White_Space. -/
def isWhitespace (c : Char) : Bool :=
  (9 ≤ c.toNat && c.toNat ≤ 13) || (8192 ≤ c.toNat && c.toNat ≤ 8202)
    || c.toNat ∈ [32, 133, 160, 5760, 8232, 8233, 8239, 8287, 12288]

/-- `text.trim().is_empty()`. -/
def blank (text : String) : Bool := text.toList.all isWhitespace

/-- `to_ascii_lowercase`. -/
def toAsciiLowercase (text : String) : String :=
  String.ofList (text.toList.map Char.toLower)

/-- `eq_ignore_ascii_case`. -/
def eqIgnoreAsciiCase (a b : String) : Bool :=
  a.toList.map Char.toLower == b.toList.map Char.toLower

/-- `is_ascii_hexdigit`. -/
def isHexDigit (c : Char) : Bool :=
  c.isDigit || ('a' ≤ c && c ≤ 'f') || ('A' ≤ c && c ≤ 'F')

/-- A SHA-256 digest in hexadecimal. -/
def isSha256 (text : String) : Bool :=
  text.length == 64 && text.toList.all isHexDigit

theorem blank_eq_false_iff {text : String} :
    blank text = false ↔ ∃ c ∈ text.toList, isWhitespace c = false := by
  simp [blank]

theorem isWhitespace_of_isAlphanum {c : Char} (h : c.isAlphanum = true) :
    isWhitespace c = false := by
  have hval : c.toNat = c.val.toNat := rfl
  have hletters : ['A', 'Z', 'a', 'z', '0', '9'].map (fun d => d.val.toNat)
      = [65, 90, 97, 122, 48, 57] := rfl
  simp only [map_cons, map_nil, cons.injEq, and_true] at hletters
  delta Char.isAlphanum Char.isAlpha Char.isUpper Char.isLower Char.isDigit at h
  simp only [Bool.or_eq_true, Bool.and_eq_true, decide_eq_true_eq, ge_iff_le,
    UInt32.le_iff_toNat_le] at h
  simp only [isWhitespace, Bool.or_eq_false_iff, Bool.and_eq_false_iff,
    decide_eq_false_iff_not, mem_cons, not_mem_nil, or_false]
  omega

theorem isHexDigit_toLower {c : Char} (h : isHexDigit c = true) : isHexDigit c.toLower = true := by
  have hascii : c.toNat < 128 := by
    simp only [isHexDigit, Char.isDigit, Bool.or_eq_true, Bool.and_eq_true,
      decide_eq_true_eq, Char.le_def, UInt32.le_iff_toNat_le] at h
    have hval : c.toNat = c.val.toNat := rfl
    rcases h with (⟨-, h⟩ | ⟨-, h⟩) | ⟨-, h⟩
    all_goals exact hval ▸ Nat.lt_of_le_of_lt h (by decide)
  have hall : ∀ n : Fin 128, isHexDigit (Char.ofNat n) = true →
      isHexDigit (Char.ofNat n).toLower = true := by decide
  have hc := hall ⟨c.toNat, hascii⟩
  rw [Char.ofNat_toNat] at hc
  exact hc h

/-- A digest stays one in lower case. -/
theorem isSha256_toAsciiLowercase {text : String} (h : isSha256 text = true) :
    isSha256 (toAsciiLowercase text) = true := by
  simp only [isSha256, Bool.and_eq_true, beq_iff_eq, all_eq_true] at h
  simp only [isSha256, toAsciiLowercase, Bool.and_eq_true, beq_iff_eq,
    all_eq_true, String.length_ofList, String.toList_ofList,
    length_map, mem_map]
  refine ⟨h.1, ?_⟩
  rintro _ ⟨c, hc, rfl⟩
  exact isHexDigit_toLower (h.2 c hc)

/-! ## States -/

/-- `JobState`. -/
inductive JobState where
  | queued
  | received
  | accepted
  | running
  | uploading
  | completed
  | failed
  | cancelled
  deriving DecidableEq, Repr

/-- `is_terminal`. -/
def JobState.isTerminal : JobState → Bool
  | .completed | .failed | .cancelled => true
  | _ => false

/-- `can_transition_to`: the self-loops, then the proper transitions. -/
def JobState.canTransitionTo : JobState → JobState → Bool
  | .queued, .queued | .queued, .received | .queued, .cancelled
  | .received, .received | .accepted, .accepted | .running, .running
  | .uploading, .uploading | .completed, .completed | .failed, .failed
  | .cancelled, .cancelled => true
  | .received, .accepted | .received, .failed | .received, .cancelled
  | .accepted, .running | .accepted, .failed | .accepted, .cancelled
  | .running, .uploading | .running, .failed | .running, .cancelled
  | .uploading, .completed | .uploading, .failed => true
  | _, _ => false

/-- `JobEventKind`. -/
inductive JobEventKind where
  | accepted
  | running
  | progress
  | uploading
  | completed
  | failed
  | cancelled
  deriving DecidableEq, Repr

/-- `JobEvent`.  `progress` is the value of the `f32`. -/
structure JobEvent where
  jobId : String
  attempt : Nat
  sequence : Nat
  kind : JobEventKind
  progress : Option Rat
  promptId : Option String
  message : String
  unixMs : Int
  deriving DecidableEq, Repr

/-- `PresignedRequest`. -/
structure PresignedRequest where
  method : String
  url : String
  headers : List (String × String)
  expiresAtUnixMs : Int
  deriving DecidableEq, Repr

/-- `JobInput`. -/
structure JobInput where
  artifactId : String
  name : String
  contentType : String
  sizeBytes : Nat
  sha256 : String
  download : PresignedRequest
  deriving DecidableEq, Repr

/-- `DispatchJob`. -/
structure DispatchJob where
  commandId : String
  jobId : String
  attempt : Nat
  workflowId : String
  workflowVersion : String
  parameters : Json
  inputs : List JobInput
  deriving DecidableEq, Repr

/-- A dispatch without inputs. -/
def plainDispatch : DispatchJob where
  commandId := "dispatch:job:1"
  jobId := "job"
  attempt := 1
  workflowId := "workflow"
  workflowVersion := "1"
  parameters := .object []
  inputs := []

/-- `JobRecord`: one job as the worker's journal holds it. -/
structure JobRecord where
  dispatch : DispatchJob
  state : JobState
  promptId : Option String
  eventSequence : Nat
  pendingEvent : Option JobEvent
  deriving DecidableEq, Repr

/-- `JobRecord::received`. -/
def JobRecord.received (dispatch : DispatchJob) : JobRecord where
  dispatch := dispatch
  state := .received
  promptId := none
  eventSequence := 0
  pendingEvent := none

/-! ## Clamped sequences -/

theorem clampI64_le (n : Nat) : clampI64 n ≤ n := Nat.min_le_left ..

theorem clampI64_mono {m n : Nat} (h : m ≤ n) : clampI64 m ≤ clampI64 n := by
  simp only [clampI64]
  omega

/-- The next sequence of a run is never stale against what was stored: the
    stored one stops at `i64::MAX`, the counter only at `u64::MAX`. -/
theorem clampI64_lt_saturatingSucc (n : Nat) : clampI64 n < saturatingSucc n := by
  simp only [clampI64, saturatingSucc, i64Max, u64Max]
  omega

/-! ## The transition table -/

variable {s : JobState}

/-- A terminal state is left for no other state. -/
theorem JobState.eq_of_isTerminal {t : JobState} (hs : s.isTerminal = true)
    (h : s.canTransitionTo t = true) : t = s := by
  revert hs h
  cases s <;> cases t <;> decide

/-- Nothing comes back to `Queued`. -/
theorem JobState.ne_queued_of_canTransitionTo {t : JobState}
    (hs : s ≠ .queued) (h : s.canTransitionTo t = true) : t ≠ .queued := by
  rintro rfl
  revert hs h
  cases s <;> decide

/-- Every job a worker has accepted can fail. -/
theorem JobState.canTransitionTo_failed (hq : s ≠ .queued)
    (ht : s.isTerminal = false) : s.canTransitionTo .failed = true := by
  revert hq ht
  cases s <;> decide

/-- Every live job can be cancelled until it uploads. -/
theorem JobState.canTransitionTo_cancelled (hu : s ≠ .uploading) (ht : s.isTerminal = false) :
    s.canTransitionTo .cancelled = true := by
  revert hu ht
  cases s <;> decide

end Jobs
