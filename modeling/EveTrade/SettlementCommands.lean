import EveTrade.SettlementTypes

set_option autoImplicit false

namespace EveTrade.SettlementCommands

open JsonText UuidText SettlementTypes

structure CreateNewTradeInstanceRow where
  tradeInstanceId : Option Uuid
  tradeKind : String
  tradeState : String
  issuerId : Int
  itemTypeId : Int
  stationId : Int
  totalQuantity : Int
  unitPriceIsk : Int
  expiresAt : Option DateTime
deriving DecidableEq

structure ModifyTradeInstanceState where
  tradeInstanceId : Uuid
  toTradeState : String
  tradeStateChangeKind : String
  changedByService : String
deriving DecidableEq

structure CreateNewEmptyItemStack where
  itemStackId : Option Uuid
  ownerId : Int
  itemTypeId : Int
  stationId : Int
deriving DecidableEq

structure TransferQuantityFromItemStackToItemStackEscrow where
  sourceItemStackId : Uuid
  itemStackEscrowId : Option Uuid
  tradeInstanceId : Uuid
  quantity : Int
deriving DecidableEq

/-- The payload of both releases of an item escrow, to a new owner and to the previous one. -/
structure TransferQuantityFromItemStackEscrowToItemStack where
  itemStackEscrowId : Uuid
  destinationItemStackId : Uuid
  quantity : Int
deriving DecidableEq

structure MergeItemStacksWithIdenticalItemTypeAndIdenticalOwner where
  sourceItemStackId : Uuid
  destinationItemStackId : Uuid
deriving DecidableEq

structure CreateNewEmptyWalletEscrow where
  walletEscrowId : Option Uuid
  tradeInstanceId : Uuid
  ownerId : Int
  sourceWalletId : Uuid
deriving DecidableEq

structure TransferIskAmountFromWalletToWalletEscrow where
  sourceWalletId : Uuid
  walletEscrowId : Option Uuid
  tradeInstanceId : Uuid
  iskAmount : Int
deriving DecidableEq

/-- The payload of both releases of a wallet escrow, to a new owner and to the previous one. -/
structure TransferIskAmountFromWalletEscrowToWallet where
  walletEscrowId : Uuid
  destinationWalletId : Uuid
  iskAmount : Int
deriving DecidableEq

inductive SettlementCommand where
  | createNewTradeInstanceRow (payload : CreateNewTradeInstanceRow)
  | modifyTradeInstanceState (payload : ModifyTradeInstanceState)
  | createNewEmptyItemStack (payload : CreateNewEmptyItemStack)
  | transferQuantityFromItemStackToItemStackEscrow
      (payload : TransferQuantityFromItemStackToItemStackEscrow)
  | transferQuantityFromItemStackEscrowToItemStackWithNewOwner
      (payload : TransferQuantityFromItemStackEscrowToItemStack)
  | transferQuantityFromItemStackEscrowToItemStackWithPreviousOwner
      (payload : TransferQuantityFromItemStackEscrowToItemStack)
  | mergeItemStacksWithIdenticalItemTypeAndIdenticalOwner
      (payload : MergeItemStacksWithIdenticalItemTypeAndIdenticalOwner)
  | createNewEmptyWalletEscrow (payload : CreateNewEmptyWalletEscrow)
  | transferIskAmountFromWalletToWalletEscrow
      (payload : TransferIskAmountFromWalletToWalletEscrow)
  | transferIskAmountFromWalletEscrowToWalletWithNewOwner
      (payload : TransferIskAmountFromWalletEscrowToWallet)
  | transferIskAmountFromWalletEscrowToWalletWithPreviousOwner
      (payload : TransferIskAmountFromWalletEscrowToWallet)
deriving DecidableEq

inductive SettlementOperationKind where
  | unspecified
  | createNewTradeInstanceRow
  | modifyTradeInstanceState
  | createNewEmptyItemStack
  | transferQuantityFromItemStackToItemStackEscrow
  | transferQuantityFromItemStackEscrowToItemStackWithNewOwner
  | transferQuantityFromItemStackEscrowToItemStackWithPreviousOwner
  | mergeItemStacksWithIdenticalItemTypeAndIdenticalOwner
  | createNewEmptyWalletEscrow
  | transferIskAmountFromWalletToWalletEscrow
  | transferIskAmountFromWalletEscrowToWalletWithNewOwner
  | transferIskAmountFromWalletEscrowToWalletWithPreviousOwner
deriving DecidableEq

structure ExecuteBatchCommand where
  intent : SettlementIntent
  idempotencyKey : String
  requestFingerprint : Option String
  externalRequestId : Option String
  causedByCapsuleerId : Option Int
  operations : List SettlementCommand
  createdByService : String
  requestId : Option Uuid
deriving DecidableEq

namespace SettlementCommand

def tradeInstanceId : SettlementCommand → Option Uuid
  | createNewTradeInstanceRow p => p.tradeInstanceId
  | modifyTradeInstanceState p => some p.tradeInstanceId
  | transferQuantityFromItemStackToItemStackEscrow p => some p.tradeInstanceId
  | createNewEmptyWalletEscrow p => some p.tradeInstanceId
  | _ => none

def kindName : SettlementCommand → String
  | createNewTradeInstanceRow _ => "create_new_trade_instance_row"
  | modifyTradeInstanceState _ => "modify_trade_instance_state"
  | createNewEmptyItemStack _ => "create_new_empty_item_stack"
  | transferQuantityFromItemStackToItemStackEscrow _ =>
    "transfer_quantity_from_item_stack_to_item_stack_escrow"
  | transferQuantityFromItemStackEscrowToItemStackWithNewOwner _ =>
    "transfer_quantity_from_item_stack_escrow_to_item_stack_with_new_owner"
  | transferQuantityFromItemStackEscrowToItemStackWithPreviousOwner _ =>
    "transfer_quantity_from_item_stack_escrow_to_item_stack_with_previous_owner"
  | mergeItemStacksWithIdenticalItemTypeAndIdenticalOwner _ =>
    "merge_item_stacks_with_identical_item_type_and_identical_owner"
  | createNewEmptyWalletEscrow _ => "create_new_empty_wallet_escrow"
  | transferIskAmountFromWalletToWalletEscrow _ =>
    "transfer_isk_amount_from_wallet_to_wallet_escrow"
  | transferIskAmountFromWalletEscrowToWalletWithNewOwner _ =>
    "transfer_isk_amount_from_wallet_escrow_to_wallet_with_new_owner"
  | transferIskAmountFromWalletEscrowToWalletWithPreviousOwner _ =>
    "transfer_isk_amount_from_wallet_escrow_to_wallet_with_previous_owner"

def protoKind : SettlementCommand → SettlementOperationKind
  | createNewTradeInstanceRow _ => .createNewTradeInstanceRow
  | modifyTradeInstanceState _ => .modifyTradeInstanceState
  | createNewEmptyItemStack _ => .createNewEmptyItemStack
  | transferQuantityFromItemStackToItemStackEscrow _ =>
    .transferQuantityFromItemStackToItemStackEscrow
  | transferQuantityFromItemStackEscrowToItemStackWithNewOwner _ =>
    .transferQuantityFromItemStackEscrowToItemStackWithNewOwner
  | transferQuantityFromItemStackEscrowToItemStackWithPreviousOwner _ =>
    .transferQuantityFromItemStackEscrowToItemStackWithPreviousOwner
  | mergeItemStacksWithIdenticalItemTypeAndIdenticalOwner _ =>
    .mergeItemStacksWithIdenticalItemTypeAndIdenticalOwner
  | createNewEmptyWalletEscrow _ => .createNewEmptyWalletEscrow
  | transferIskAmountFromWalletToWalletEscrow _ => .transferIskAmountFromWalletToWalletEscrow
  | transferIskAmountFromWalletEscrowToWalletWithNewOwner _ =>
    .transferIskAmountFromWalletEscrowToWalletWithNewOwner
  | transferIskAmountFromWalletEscrowToWalletWithPreviousOwner _ =>
    .transferIskAmountFromWalletEscrowToWalletWithPreviousOwner

end SettlementCommand

def kindNameToProto (kindName : String) : SettlementOperationKind :=
  if kindName = "create_new_trade_instance_row" then .createNewTradeInstanceRow
  else if kindName = "modify_trade_instance_state" then .modifyTradeInstanceState
  else if kindName = "create_new_empty_item_stack" then .createNewEmptyItemStack
  else if kindName = "transfer_quantity_from_item_stack_to_item_stack_escrow" then
    .transferQuantityFromItemStackToItemStackEscrow
  else if kindName = "transfer_quantity_from_item_stack_escrow_to_item_stack_with_new_owner" then
    .transferQuantityFromItemStackEscrowToItemStackWithNewOwner
  else if kindName =
      "transfer_quantity_from_item_stack_escrow_to_item_stack_with_previous_owner" then
    .transferQuantityFromItemStackEscrowToItemStackWithPreviousOwner
  else if kindName = "merge_item_stacks_with_identical_item_type_and_identical_owner" then
    .mergeItemStacksWithIdenticalItemTypeAndIdenticalOwner
  else if kindName = "create_new_empty_wallet_escrow" then .createNewEmptyWalletEscrow
  else if kindName = "transfer_isk_amount_from_wallet_to_wallet_escrow" then
    .transferIskAmountFromWalletToWalletEscrow
  else if kindName = "transfer_isk_amount_from_wallet_escrow_to_wallet_with_new_owner" then
    .transferIskAmountFromWalletEscrowToWalletWithNewOwner
  else if kindName = "transfer_isk_amount_from_wallet_escrow_to_wallet_with_previous_owner" then
    .transferIskAmountFromWalletEscrowToWalletWithPreviousOwner
  else .unspecified

theorem kindNameToProto_kindName (c : SettlementCommand) :
    kindNameToProto c.kindName = c.protoKind := by
  cases c <;> simp [kindNameToProto, SettlementCommand.kindName, SettlementCommand.protoKind]

section Serialisation

def uuidJson (u : Uuid) : Json := .str u.text

theorem uuidJson_inj {u v : Uuid} : uuidJson u = uuidJson v ↔ u = v := by
  rw [uuidJson, uuidJson, Json.str.injEq, Uuid.text_injective.eq_iff]

theorem optional_uuidJson_inj {u v : Option Uuid} :
    optional uuidJson u = optional uuidJson v ↔ u = v :=
  (optional_injective (fun _ _ h => uuidJson_inj.1 h) (fun _ h => Json.noConfusion h)).eq_iff

def SettlementCommand.payloadJson (ext : External) : SettlementCommand → Json
  | createNewTradeInstanceRow p => .obj [
      ("trade_instance_id", optional uuidJson p.tradeInstanceId),
      ("trade_kind", .str p.tradeKind),
      ("trade_state", .str p.tradeState),
      ("issuer_id", .num p.issuerId),
      ("item_type_id", .num p.itemTypeId),
      ("station_id", .num p.stationId),
      ("total_quantity", .num p.totalQuantity),
      ("unit_price_isk", .num p.unitPriceIsk),
      ("expires_at", optional (fun t => .str (ext.serdeDateTime t)) p.expiresAt)]
  | modifyTradeInstanceState p => .obj [
      ("trade_instance_id", uuidJson p.tradeInstanceId),
      ("to_trade_state", .str p.toTradeState),
      ("trade_state_change_kind", .str p.tradeStateChangeKind),
      ("changed_by_service", .str p.changedByService)]
  | createNewEmptyItemStack p => .obj [
      ("item_stack_id", optional uuidJson p.itemStackId),
      ("owner_id", .num p.ownerId),
      ("item_type_id", .num p.itemTypeId),
      ("station_id", .num p.stationId)]
  | transferQuantityFromItemStackToItemStackEscrow p => .obj [
      ("source_item_stack_id", uuidJson p.sourceItemStackId),
      ("item_stack_escrow_id", optional uuidJson p.itemStackEscrowId),
      ("trade_instance_id", uuidJson p.tradeInstanceId),
      ("quantity", .num p.quantity)]
  | transferQuantityFromItemStackEscrowToItemStackWithNewOwner p
  | transferQuantityFromItemStackEscrowToItemStackWithPreviousOwner p => .obj [
      ("item_stack_escrow_id", uuidJson p.itemStackEscrowId),
      ("destination_item_stack_id", uuidJson p.destinationItemStackId),
      ("quantity", .num p.quantity)]
  | mergeItemStacksWithIdenticalItemTypeAndIdenticalOwner p => .obj [
      ("source_item_stack_id", uuidJson p.sourceItemStackId),
      ("destination_item_stack_id", uuidJson p.destinationItemStackId)]
  | createNewEmptyWalletEscrow p => .obj [
      ("wallet_escrow_id", optional uuidJson p.walletEscrowId),
      ("trade_instance_id", uuidJson p.tradeInstanceId),
      ("owner_id", .num p.ownerId),
      ("source_wallet_id", uuidJson p.sourceWalletId)]
  | transferIskAmountFromWalletToWalletEscrow p => .obj [
      ("source_wallet_id", uuidJson p.sourceWalletId),
      ("wallet_escrow_id", optional uuidJson p.walletEscrowId),
      ("trade_instance_id", uuidJson p.tradeInstanceId),
      ("isk_amount", .num p.iskAmount)]
  | transferIskAmountFromWalletEscrowToWalletWithNewOwner p
  | transferIskAmountFromWalletEscrowToWalletWithPreviousOwner p => .obj [
      ("wallet_escrow_id", uuidJson p.walletEscrowId),
      ("destination_wallet_id", uuidJson p.destinationWalletId),
      ("isk_amount", .num p.iskAmount)]

def SettlementCommand.toJson (ext : External) (c : SettlementCommand) : Json :=
  .obj [("kind", .str c.kindName), ("payload", c.payloadJson ext)]

/-- Distinct commands serialise differently, given that distinct instants do. -/
theorem SettlementCommand.toJson_injective {ext : External}
    (hd : Function.Injective ext.serdeDateTime) :
    Function.Injective (SettlementCommand.toJson ext) := by
  intro a b h
  simp only [toJson, Json.obj.injEq, List.cons.injEq, Prod.mk.injEq, true_and, Json.str.injEq,
    and_true] at h
  obtain ⟨hk, hp⟩ := h
  have hkind : a.protoKind = b.protoKind := by
    rw [← kindNameToProto_kindName, hk, kindNameToProto_kindName]
  have ht : ∀ s t : Option DateTime,
      optional (fun t => Json.str (ext.serdeDateTime t)) s =
        optional (fun t => Json.str (ext.serdeDateTime t)) t ↔ s = t := fun s t =>
    (optional_injective (fun _ _ h => hd (Json.str.inj h)) (fun _ h => Json.noConfusion h)).eq_iff
  cases a <;> cases b <;> first
    | (simp [protoKind] at hkind; done)
    | simp only [payloadJson, Json.obj.injEq, List.cons.injEq, Prod.mk.injEq, true_and,
        Json.str.injEq, Json.num.injEq, uuidJson_inj, optional_uuidJson_inj, ht, and_true] at hp
      rename_i p q
      cases p
      cases q
      simp_all

end Serialisation

structure EntityReferenceOutput where
  entityKind : String
  entityId : Uuid
deriving DecidableEq

structure OperationOutput where
  entityReferences : List EntityReferenceOutput
deriving DecidableEq

namespace OperationOutput

def single (entityKind : String) (entityId : Uuid) : OperationOutput := ⟨[⟨entityKind, entityId⟩]⟩

def toJson (o : OperationOutput) : Json :=
  .obj [("entity_references", .arr (o.entityReferences.map fun r =>
    .obj [("entity_kind", .str r.entityKind), ("entity_id", uuidJson r.entityId)]))]

def referenceOfJson : Json → Except String EntityReferenceOutput
  | .obj fields =>
    match (Json.obj fields).field? "entity_kind", (Json.obj fields).field? "entity_id" with
    | some (.str kind), some (.str id) =>
      match Uuid.parse id with
      | some u => .ok ⟨kind, u⟩
      | none => .error "UUID parsing failed"
    | none, _ => .error "missing field `entity_kind`"
    | _, none => .error "missing field `entity_id`"
    | _, _ => .error "invalid type"
  | _ => .error "invalid type"

def referencesOfJson : List Json → Except String (List EntityReferenceOutput)
  | [] => .ok []
  | j :: js =>
    match referenceOfJson j, referencesOfJson js with
    | .ok r, .ok rs => .ok (r :: rs)
    | .error e, _ => .error e
    | _, .error e => .error e

/-- A missing list of references reads as the empty one. -/
def ofJson : Json → Except String OperationOutput
  | .obj fields =>
    match (Json.obj fields).field? "entity_references" with
    | none => .ok ⟨[]⟩
    | some (.arr js) =>
      match referencesOfJson js with
      | .ok rs => .ok ⟨rs⟩
      | .error e => .error e
    | some _ => .error "invalid type"
  | _ => .error "invalid type"

theorem referenceOfJson_toJson (r : EntityReferenceOutput) :
    referenceOfJson (.obj [("entity_kind", .str r.entityKind), ("entity_id", uuidJson r.entityId)])
      = .ok r := by
  simp [referenceOfJson, Json.field?, uuidJson, Uuid.parse_text]

/-- What `mark_step_completed` stores, replay reads back. -/
theorem ofJson_toJson (o : OperationOutput) : ofJson o.toJson = .ok o := by
  have hrefs : ∀ rs : List EntityReferenceOutput, referencesOfJson (rs.map fun r =>
      .obj [("entity_kind", .str r.entityKind), ("entity_id", uuidJson r.entityId)]) = .ok rs := by
    intro rs
    induction rs with
    | nil => rfl
    | cons r rs ih => rw [List.map_cons, referencesOfJson, referenceOfJson_toJson, ih]
  simp [ofJson, toJson, Json.field?, hrefs]

end OperationOutput

end EveTrade.SettlementCommands
