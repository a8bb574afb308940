import EveTrade.SettlementTypes

set_option autoImplicit false

/-!
# The rules that messages declare on their fields
-/
namespace EveTrade.ValidationRules

open FieldText SettlementTypes

def nonBlankString : Rule String where
  id := "eve.string.non_blank"
  message := "value must not be blank"
  holds := nonBlank

def uuidString : Rule String where
  id := "eve.string.uuid"
  message := "value must be a valid UUID"
  holds := isUuidText

def optionalUuidString : Rule String where
  id := "eve.string.optional_uuid"
  message := "value must be empty or a valid UUID"
  holds := fun s => s == "" || isUuidText s

def tradeKindSell : Rule String where
  id := "eve.string.trade_kind_sell"
  message := "trade_kind must be SELL"
  holds := fun s => s == "SELL"

def tradeStateOpen : Rule String where
  id := "eve.string.trade_state_open"
  message := "trade_state must be OPEN"
  holds := fun s => s == "OPEN"

def tradeState : Rule String where
  id := "eve.string.trade_state"
  message := "trade_state must be OPEN, CANCELLED, or COMPLETED"
  holds := fun s => ["OPEN", "CANCELLED", "COMPLETED"].contains s

def tradeStateChangeKind : Rule String where
  id := "eve.string.trade_state_change_kind"
  message := "trade_state_change_kind must be CANCELLED_BY_ISSUER or ACCEPTED_BY_BUYER"
  holds := fun s => ["CANCELLED_BY_ISSUER", "ACCEPTED_BY_BUYER"].contains s

def issueActions : List String :=
  ["market_place_sell_order", "contract_create_item_exchange", "direct_trade_offer"]

def acceptActions : List String :=
  ["market_buy_from_sell_order", "contract_accept_item_exchange", "direct_trade_accept"]

def cancelActions : List String :=
  ["market_cancel_order", "contract_cancel_item_exchange", "direct_trade_cancel"]

def tradeGuiSchemaVersion : Rule String where
  id := "eve.string.trade_gui_schema_version"
  message := "schema_version must be eve-trade-gui.v1"
  holds := fun s => s == "eve-trade-gui.v1"

def tradeGuiAction : Rule String where
  id := "eve.string.trade_gui_action"
  message := "unsupported trade GUI action"
  holds := fun s => (issueActions ++ acceptActions ++ cancelActions).contains s

def edgeSchemaVersion : Rule String where
  id := "eve.string.edge_schema_version"
  message := "schema_version must be eve-trade-edge.v2"
  holds := fun s => s == "eve-trade-edge.v2"

def hmacSha256Algorithm : Rule String where
  id := "eve.string.hmac_sha256_algorithm"
  message := "algorithm must be hmac-sha256"
  holds := fun s => s == "hmac-sha256"

def positiveInt64 : Rule Int where
  id := "eve.int64.positive"
  message := "value must be greater than zero"
  holds := fun n => decide (0 < n)

def nonNegative : Rule Int where
  id := "int64.gte"
  message := "value must be greater than or equal to 0"
  holds := fun n => decide (0 ≤ n)

def minItems : Rule ℕ where
  id := "repeated.min_items"
  message := "value must contain at least 1 item(s)"
  holds := fun n => decide (1 ≤ n)

def minBytes : Rule ℕ where
  id := "bytes.min_len"
  message := "value length must be at least 1 bytes"
  holds := fun n => decide (1 ≤ n)

def required : Rule Bool where
  id := "required"
  message := "value is required"
  holds := id

def gtNow (now : DateTime) : Rule DateTime where
  id := "timestamp.gt_now"
  message := "value must be greater than now"
  holds := fun t => decide (now < t)

def specified : Rule SettlementIntent where
  id := "enum.not_in"
  message := "value must not be in list [0]"
  holds := fun i => decide (i ≠ .unspecified)

end EveTrade.ValidationRules
