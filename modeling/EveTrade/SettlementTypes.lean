import EveTrade.FieldText

set_option autoImplicit false

namespace EveTrade.SettlementTypes

open UuidText FieldText

/-- An instant in nanoseconds since the Unix epoch. -/
abbrev DateTime := Int

/-- `timestamptz` keeps microseconds counted from the year 2000. -/
def storedTimestamp (t : DateTime) : DateTime :=
  946684800000000000 + (t - 946684800000000000).tdiv 1000 * 1000

def InI64 (n : Int) : Prop := -2 ^ 63 ≤ n ∧ n < 2 ^ 63

instance (n : Int) : Decidable (InI64 n) := inferInstanceAs (Decidable (_ ∧ _))

def InI32 (n : Int) : Prop := -2 ^ 31 ≤ n ∧ n < 2 ^ 31

instance (n : Int) : Decidable (InI32 n) := inferInstanceAs (Decidable (_ ∧ _))

/-- What the services take from libraries: the digest of their checksums, the two texts of an instant,
the one of error messages and the one of serialised payloads, the reading of such a text, and the text
of a message's violations. -/
structure External where
  sha256Hex : String → String
  toRfc3339 : DateTime → String
  serdeDateTime : DateTime → String
  parseRfc3339 : String → Option DateTime
  violationsText : List Violation → String

inductive DbError where
  | uniqueViolation (constraint : String)
  | foreignKeyViolation (table constraint : String)
  | checkViolation (table constraint : String)
  | raised (message : String)
  | outOfRange (type : String)
  | other (message : String)
deriving DecidableEq

def DbError.message : DbError → String
  | uniqueViolation c =>
    s!"error returned from database: duplicate key value violates unique constraint \"{c}\""
  | foreignKeyViolation t c =>
    s!"error returned from database: insert or update on table \"{t}\" violates foreign key constraint \"{c}\""
  | checkViolation t c =>
    s!"error returned from database: new row for relation \"{t}\" violates check constraint \"{c}\""
  | raised m => s!"error returned from database: {m}"
  | outOfRange t => s!"error returned from database: {t} out of range"
  | other m => m

inductive SettlementError where
  | invalidArgument (message : String)
  | notFound (message : String)
  | conflict (message : String)
  | failedPrecondition (message : String)
  | permissionDenied (message : String)
  | insufficientFunds (message : String)
  | insufficientQuantity (message : String)
  | database (error : DbError)
  | serialization (message : String)
  | validation (message : String)
  | validator (message : String)
deriving DecidableEq

namespace SettlementError

def code : SettlementError → String
  | invalidArgument _ => "INVALID_ARGUMENT"
  | notFound _ => "NOT_FOUND"
  | conflict _ => "CONFLICT"
  | failedPrecondition _ => "FAILED_PRECONDITION"
  | permissionDenied _ => "PERMISSION_DENIED"
  | insufficientFunds _ => "INSUFFICIENT_FUNDS"
  | insufficientQuantity _ => "INSUFFICIENT_QUANTITY"
  | database _ => "DATABASE_ERROR"
  | serialization _ => "SERIALIZATION_ERROR"
  | validation _ => "INVALID_ARGUMENT"
  | validator _ => "VALIDATION_ERROR"

def display : SettlementError → String
  | invalidArgument m => "invalid argument: " ++ m
  | notFound m => "not found: " ++ m
  | conflict m => "conflict: " ++ m
  | failedPrecondition m => "failed precondition: " ++ m
  | permissionDenied m => "permission denied: " ++ m
  | insufficientFunds m => "insufficient funds: " ++ m
  | insufficientQuantity m => "insufficient quantity: " ++ m
  | database e => "database error: " ++ e.message
  | serialization m => "serialization error: " ++ m
  | validation m => "validation error: " ++ m
  | validator m => "validation error: " ++ m

end SettlementError

inductive GrpcCode where
  | canceled | unknown | invalidArgument | deadlineExceeded | notFound | alreadyExists
  | permissionDenied | resourceExhausted | failedPrecondition | aborted | outOfRange
  | unimplemented | internal | unavailable | dataLoss | unauthenticated
deriving DecidableEq

def GrpcCode.text : GrpcCode → String
  | canceled => "Canceled"
  | unknown => "Unknown"
  | invalidArgument => "InvalidArgument"
  | deadlineExceeded => "DeadlineExceeded"
  | notFound => "NotFound"
  | alreadyExists => "AlreadyExists"
  | permissionDenied => "PermissionDenied"
  | resourceExhausted => "ResourceExhausted"
  | failedPrecondition => "FailedPrecondition"
  | aborted => "Aborted"
  | outOfRange => "OutOfRange"
  | unimplemented => "Unimplemented"
  | internal => "Internal"
  | unavailable => "Unavailable"
  | dataLoss => "DataLoss"
  | unauthenticated => "Unauthenticated"

structure Status where
  code : GrpcCode
  message : String
deriving DecidableEq

/-- The error text a client sees. -/
def Status.text (s : Status) : String := s!"rpc error: code = {s.code.text} desc = {s.message}"

def SettlementError.intoStatus : SettlementError → Status
  | invalidArgument m => ⟨.invalidArgument, m⟩
  | notFound m => ⟨.notFound, m⟩
  | conflict m => ⟨.aborted, m⟩
  | failedPrecondition m => ⟨.failedPrecondition, m⟩
  | permissionDenied m => ⟨.permissionDenied, m⟩
  | insufficientFunds m => ⟨.failedPrecondition, m⟩
  | insufficientQuantity m => ⟨.failedPrecondition, m⟩
  | database e => ⟨.internal, e.message⟩
  | serialization m => ⟨.internal, m⟩
  | validation m => ⟨.invalidArgument, m⟩
  | validator m => ⟨.internal, m⟩

inductive TradeKind where
  | sell
deriving DecidableEq

inductive TradeState where
  | «open» | cancelled | completed
deriving DecidableEq

def TradeState.text : TradeState → String
  | .open => "OPEN"
  | .cancelled => "CANCELLED"
  | .completed => "COMPLETED"

def TradeState.ofText? (s : String) : Option TradeState :=
  if s = "OPEN" then some .open
  else if s = "CANCELLED" then some .cancelled
  else if s = "COMPLETED" then some .completed
  else none

inductive TradeStateChangeKind where
  | issued | cancelledByIssuer | acceptedByBuyer
deriving DecidableEq

def TradeStateChangeKind.ofText? (s : String) : Option TradeStateChangeKind :=
  if s = "ISSUED" then some .issued
  else if s = "CANCELLED_BY_ISSUER" then some .cancelledByIssuer
  else if s = "ACCEPTED_BY_BUYER" then some .acceptedByBuyer
  else none

inductive WalletState where
  | active | suspended | closed
deriving DecidableEq

inductive StackState where
  | active | locked | depleted | merged
deriving DecidableEq

def StackState.text : StackState → String
  | active => "ACTIVE"
  | locked => "LOCKED"
  | depleted => "DEPLETED"
  | merged => "MERGED"

/-- A stack's first ledger row has no earlier state, written `ABSENT`. -/
def stackStateBeforeText : Option StackState → String
  | none => "ABSENT"
  | some s => s.text

inductive EntryKind where
  | createStack | transferToEscrow | transferFromEscrowToNewOwner
  | transferFromEscrowToPreviousOwner | mergeIn | mergeOut
deriving DecidableEq

def EntryKind.text : EntryKind → String
  | createStack => "CREATE_STACK"
  | transferToEscrow => "TRANSFER_TO_ESCROW"
  | transferFromEscrowToNewOwner => "TRANSFER_FROM_ESCROW_TO_NEW_OWNER"
  | transferFromEscrowToPreviousOwner => "TRANSFER_FROM_ESCROW_TO_PREVIOUS_OWNER"
  | mergeIn => "MERGE_IN"
  | mergeOut => "MERGE_OUT"

/-- The states that idempotency records, request attempts and batches share. -/
inductive ProgressState where
  | inProgress | completed | failed
deriving DecidableEq

inductive StepState where
  | pending | running | completed | failed
deriving DecidableEq

inductive OperationState where
  | queued | processing | succeeded | failed | cancelled | expired
deriving DecidableEq

def OperationState.text : OperationState → String
  | queued => "QUEUED"
  | processing => "PROCESSING"
  | succeeded => "SUCCEEDED"
  | failed => "FAILED"
  | cancelled => "CANCELLED"
  | expired => "EXPIRED"

inductive SettlementIntent where
  | unspecified | issue | accept | cancel
deriving DecidableEq

def SettlementIntent.text : SettlementIntent → String
  | unspecified => "UNSPECIFIED"
  | issue => "ISSUE"
  | accept => "ACCEPT"
  | cancel => "CANCEL"

def checksumAlgorithm : String := "sha256-v1"

def walletChecksum (ext : External) (walletId : Uuid) (iskAmount walletVersion : Int) : String :=
  ext.sha256Hex s!"wallet:{walletId}:{iskAmount}:{walletVersion}"

def itemStackChecksum (ext : External) (itemStackId : Uuid) (quantity stackVersion : Int) :
    String :=
  ext.sha256Hex s!"item_stack:{itemStackId}:{quantity}:{stackVersion}"

end EveTrade.SettlementTypes
