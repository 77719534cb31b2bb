import AiRetrieval.Library.Checked
import Mathlib.Order.Defs.PartialOrder
import Mathlib.Tactic.Ring

/-! Text, times and errors as the bulk subsystem uses them. A datetime is an
instant in microseconds together with whether it is timezone-aware: comparing an
aware with a naive one raises, as does an addition that leaves the calendar. -/

namespace AiRetrieval

abbrev Bytes := List UInt8

def encodeUtf8 (s : String) : Bytes := s.toUTF8.toList

/-- The characters `str.strip` removes. -/
def isSpace (c : Char) : Bool :=
  (9 ≤ c.toNat && c.toNat ≤ 13) || (28 ≤ c.toNat && c.toNat ≤ 32) || c.toNat == 0x85 ||
    c.toNat == 0xA0 || c.toNat == 0x1680 || (0x2000 ≤ c.toNat && c.toNat ≤ 0x200A) ||
    c.toNat == 0x2028 || c.toNat == 0x2029 || c.toNat == 0x202F || c.toNat == 0x205F ||
    c.toNat == 0x3000

/-- `not value.strip()`. -/
def blank (value : String) : Bool := value.toList.all isSpace

theorem blank_append_left {a : String} (b : String) (h : blank a = false) :
    blank (a ++ b) = false := by
  unfold blank at h ⊢
  rw [String.toList_append, List.all_append, h, Bool.false_and]

inductive TerminalWorkItemState where
  | succeeded
  | validationFailed
  | policyRejected
  | budgetExhausted
  | retryExhausted
  | writeBackFailed
  | cancelled
  deriving DecidableEq, Repr

/-- `tuple(TerminalWorkItemState)`. -/
def TerminalWorkItemState.all : List TerminalWorkItemState :=
  [.succeeded, .validationFailed, .policyRejected, .budgetExhausted, .retryExhausted,
    .writeBackFailed, .cancelled]

/-- The exception classes the bulk subsystem raises by name; `other` stands for
any further subclass of `Exception` a collaborator raises. -/
inductive ErrorClass where
  | valueError
  | typeError
  | overflowError
  | keyError
  | indexError
  | attributeError
  | assertionError
  | stopIteration
  | runtimeError
  | workNotFoundError
  | workConflictError
  | leaseOwnershipError
  | checkpointTransitionError
  | effectRecoveryError
  | effectConflictError
  | deadLetterPersistenceError
  | other (name : String)
  deriving DecidableEq, Repr

def ErrorClass.name : ErrorClass → String
  | .valueError => "ValueError"
  | .typeError => "TypeError"
  | .overflowError => "OverflowError"
  | .keyError => "KeyError"
  | .indexError => "IndexError"
  | .attributeError => "AttributeError"
  | .assertionError => "AssertionError"
  | .stopIteration => "StopIteration"
  | .runtimeError => "RuntimeError"
  | .workNotFoundError => "WorkNotFoundError"
  | .workConflictError => "WorkConflictError"
  | .leaseOwnershipError => "LeaseOwnershipError"
  | .checkpointTransitionError => "CheckpointTransitionError"
  | .effectRecoveryError => "EffectRecoveryError"
  | .effectConflictError => "EffectConflictError"
  | .deadLetterPersistenceError => "DeadLetterPersistenceError"
  | .other name => name

def taskFailureStates : List TerminalWorkItemState :=
  [.validationFailed, .policyRejected, .budgetExhausted]

theorem budgetExhausted_raisable : .budgetExhausted ∈ taskFailureStates := by decide

structure BulkTaskFailure where
  state : TerminalWorkItemState
  code : String
  details : String
  raisable : state ∈ taskFailureStates
  deriving DecidableEq, Repr

/-- What a call can raise. `interrupt` is the only one outside `Exception`: the
process is stopped there and no handler of the code runs. -/
inductive PyError where
  | raised (cls : ErrorClass) (message : String)
  | bulkTaskFailure (failure : BulkTaskFailure)
  | securityRejection (code message : String)
  | interrupt
  deriving DecidableEq, Repr

namespace PyError

def valueError (message : String) : PyError := .raised .valueError message
def typeError (message : String) : PyError := .raised .typeError message

def typeName : PyError → String
  | .raised cls _ => cls.name
  | .bulkTaskFailure .. => "_BulkTaskFailure"
  | .securityRejection .. => "SecurityRejection"
  | .interrupt => "KeyboardInterrupt"

/-- `str(error)`. -/
def text : PyError → String
  | .raised _ message => message
  | .bulkTaskFailure failure => failure.details
  | .securityRejection _ message => message
  | .interrupt => ""

end PyError

def requireText (name value : String) : Except PyError Unit :=
  require (blank value = false) (.valueError (name ++ " must not be blank"))

/-- The loop of `_require_text` calls of a `__post_init__`. -/
def requireTexts : List (String × String) → Except PyError Unit
  | [] => .ok ()
  | (name, value) :: rest => do requireText name value; requireTexts rest

theorem requireText_eq_ok {name value : String} :
    requireText name value = .ok () ↔ blank value = false := require_eq_ok

theorem requireTexts_eq_ok {l : List (String × String)} :
    requireTexts l = .ok () ↔ ∀ p ∈ l, blank p.2 = false := by
  induction l with
  | nil => simp [requireTexts]
  | cons p rest ih =>
    obtain ⟨name, value⟩ := p
    simp only [requireTexts, except_seq_eq_ok, requireText_eq_ok, ih, List.forall_mem_cons]

/-- Microseconds. -/
abbrev TimeDelta := Int

structure DateTime where
  aware : Bool
  instant : Int
  deriving DecidableEq, Repr

namespace DateTime

/-- `datetime.max`, counted from `datetime.min`. -/
def maxInstant : Int := 315537897599999999

instance : LE DateTime := ⟨fun a b => a.aware = b.aware ∧ a.instant ≤ b.instant⟩
instance : LT DateTime := ⟨fun a b => a.aware = b.aware ∧ a.instant < b.instant⟩

instance (a b : DateTime) : Decidable (a ≤ b) :=
  inferInstanceAs (Decidable (a.aware = b.aware ∧ a.instant ≤ b.instant))
instance (a b : DateTime) : Decidable (a < b) :=
  inferInstanceAs (Decidable (a.aware = b.aware ∧ a.instant < b.instant))

theorem le_def {a b : DateTime} : a ≤ b ↔ a.aware = b.aware ∧ a.instant ≤ b.instant := Iff.rfl
theorem lt_def {a b : DateTime} : a < b ↔ a.aware = b.aware ∧ a.instant < b.instant := Iff.rfl

instance : PartialOrder DateTime where
  le_refl a := ⟨rfl, le_refl _⟩
  le_trans a b c h h' := ⟨h.1.trans h'.1, h.2.trans h'.2⟩
  le_antisymm a b h h' := by
    obtain ⟨aw, ai⟩ := a
    obtain ⟨bw, bi⟩ := b
    simp only [le_def] at h h'
    obtain rfl := h.1
    rw [le_antisymm h.2 h'.2]
  lt_iff_le_not_ge a b := by
    simp only [le_def, lt_def]
    constructor
    · rintro ⟨h, hi⟩
      exact ⟨⟨h, le_of_lt hi⟩, fun hb => absurd hb.2 (by omega)⟩
    · rintro ⟨⟨h, -⟩, hn⟩
      exact ⟨h, by by_contra hc; exact hn ⟨h.symm, by omega⟩⟩

def mixedComparison : PyError :=
  .typeError "can't compare offset-naive and offset-aware datetimes"

def before (a b : DateTime) : Except PyError Bool :=
  if a.aware = b.aware then .ok (decide (a.instant < b.instant)) else .error mixedComparison

def notAfter (a b : DateTime) : Except PyError Bool :=
  if a.aware = b.aware then .ok (decide (a.instant ≤ b.instant)) else .error mixedComparison

def plus (t : DateTime) (d : TimeDelta) : Except PyError DateTime :=
  if 0 ≤ t.instant + d ∧ t.instant + d ≤ maxInstant then .ok { t with instant := t.instant + d }
  else .error (.raised .overflowError "date value out of range")

def minus (a b : DateTime) : Except PyError TimeDelta :=
  if a.aware = b.aware then .ok (a.instant - b.instant)
  else .error (.typeError "can't subtract offset-naive and offset-aware datetimes")

theorem before_eq_ok {a b : DateTime} {r : Bool} :
    a.before b = .ok r ↔ a.aware = b.aware ∧ r = decide (a.instant < b.instant) := by
  unfold before
  split <;> simp [*, eq_comm]

theorem notAfter_eq_ok {a b : DateTime} {r : Bool} :
    a.notAfter b = .ok r ↔ a.aware = b.aware ∧ r = decide (a.instant ≤ b.instant) := by
  unfold notAfter
  split <;> simp [*, eq_comm]

theorem plus_eq_ok {t u : DateTime} {d : TimeDelta} (h : t.plus d = .ok u) :
    u.aware = t.aware ∧ u.instant = t.instant + d := by
  unfold plus at h
  split at h
  · cases h; exact ⟨rfl, rfl⟩
  · cases h

end DateTime

end AiRetrieval
