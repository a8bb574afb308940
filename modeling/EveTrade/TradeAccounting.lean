import EveTrade.TradeCalls

set_option autoImplicit false

/-!
# The accounts of trades

For each trade an account of what the committed calls of a history have moved: what was added to the
stacks of its buyers, to the stacks of its issuer when it was cancelled, and to the wallets of its
issuer. The account explains the trade's quantities.
-/
namespace EveTrade.TradeAccounting

open KeyedTable UuidText SettlementTypes SettlementCommands SettlementSchema SettlementAuthorization
  SettlementPlan SettlementExecutor SettlementAuthorizationSpecs TradeBook TradeCalls

section Holdings

def stackShare (capsuleer : Int) (s : ItemStackRow) : Int :=
  if s.ownerId = capsuleer then s.quantity else 0

def walletShare (capsuleer : Int) (w : WalletRow) : Int :=
  if w.capsuleerId = capsuleer then w.iskAmount else 0

def stockOf (b : Business) (capsuleer : Int) : Int := b.itemStack.sum (stackShare capsuleer)

def balanceOf (b : Business) (capsuleer : Int) : Int := b.wallet.sum (walletShare capsuleer)

variable {capsuleer : Int}

theorem sum_restocked {rows : Table ItemStackRow} {s s' : ItemStackRow} {delta : Int}
    (found : rows.find? s.itemStackId = some s) (h : Restocked s s' delta)
    (owner : s.ownerId = capsuleer) :
    (rows.set s').sum (stackShare capsuleer) = rows.sum (stackShare capsuleer) + delta := by
  have hkey : Keyed.key s' = s.itemStackId := h.itemStackId
  rw [Table.sum_set (hkey ▸ found), stackShare, stackShare, if_pos owner,
    if_pos (h.ownerId.trans owner), h.quantity]
  omega

theorem sum_stackAdded {rows rows' : Table ItemStackRow} (h : StackAdded capsuleer rows rows') :
    rows'.sum (stackShare capsuleer) = rows.sum (stackShare capsuleer) := by
  cases h with
  | same => rfl
  | added s _ owner empty inserted =>
    rw [Table.sum_insert inserted, stackShare, if_pos owner, empty]
    omega

theorem sum_repriced (capsuleer : Int) {rows : Table WalletRow} {w w' : WalletRow} {delta : Int}
    (found : rows.find? w.walletId = some w) (h : Repriced w w' delta) :
    (rows.set w').sum (walletShare capsuleer) =
      rows.sum (walletShare capsuleer) + if w.capsuleerId = capsuleer then delta else 0 := by
  have hkey : Keyed.key w' = w.walletId := h.walletId
  rw [Table.sum_set (hkey ▸ found), walletShare, walletShare, h.capsuleerId, h.iskAmount]
  split_ifs <;> omega

end Holdings

section Accounts

structure Account where
  delivered : Int
  returned : Int
  credited : Int
deriving DecidableEq

def Account.opening : Account := ⟨0, 0, 0⟩

def namedTrade (command : ExecuteBatchCommand) : Option Uuid :=
  match command.intent with
  | .accept => (command.operations.findSome? walletDebit?).map fun p => p.tradeInstanceId
  | .cancel => (command.operations.findSome? stateTransition?).map fun p => p.tradeInstanceId
  | _ => none

/-- The account of a trade after a committed call that names it. -/
def Account.post (command : ExecuteBatchCommand) (actor : Int) (t : TradeInstanceRow)
    (b b' : Business) (a : Account) : Account :=
  match command.intent with
  | .accept =>
    { a with
      delivered := a.delivered + (stockOf b' actor - stockOf b actor)
      credited := a.credited + (balanceOf b' t.issuerId - balanceOf b t.issuerId) }
  | .cancel => { a with returned := a.returned + (stockOf b' t.issuerId - stockOf b t.issuerId) }
  | _ => a

def Account.record (id : Uuid) (command : ExecuteBatchCommand) (b b' : Business) (a : Account) :
    Account :=
  if namedTrade command = some id then
    match command.causedByCapsuleerId, b.tradeInstance.find? id with
    | some actor, some t => a.post command actor t b b'
    | _, _ => a
  else a

/-- The account of a trade after a sequence of calls; only committed calls are recorded. -/
def account (ext : External) (id : Uuid) :
    List (ExecEnv × ExecuteBatchCommand) → Db → Account → Account
  | [], _, a => a
  | (env, command) :: rest, db, a =>
    let r := executeBatch ext env command db
    account ext id rest r.2
      (if commits r.1 then a.record id command db.business r.2.business else a)

/-- The account explains what the trade has sold and what it still holds. -/
def Explains (a : Account) (t : TradeInstanceRow) : Prop :=
  t.totalQuantity = a.delivered + a.returned + t.remainingQuantity ∧
    a.credited = t.unitPriceIsk * a.delivered

/-- A trade is explained by its account; before it is issued the account is empty. -/
structure Balanced (b : Business) (id : Uuid) (a : Account) : Prop where
  unissued : b.tradeInstance.find? id = none → a = .opening
  explained : ∀ t, b.tradeInstance.find? id = some t → Explains a t

variable {command : ExecuteBatchCommand} {actor : Int} {id tradeInstanceId : Uuid}
  {quantity : Int} {b b' : Business} {t : TradeInstanceRow} {a : Account}

theorem record_of_ne (h : namedTrade command ≠ some id) :
    a.record id command b b' = a := if_neg h

theorem record_of_named (h : namedTrade command = some id)
    (hactor : command.causedByCapsuleerId = some actor)
    (ht : b.tradeInstance.find? id = some t) :
    a.record id command b b' = a.post command actor t b b' := by
  rw [Account.record, if_pos h, hactor, ht]

theorem namedTrade_issue (h : command.intent = .issue) : namedTrade command = none := by
  simp only [namedTrade, h]

theorem namedTrade_accept {p : AcceptPlan} (h : command.intent = .accept)
    (operations : command.operations = p.operations) :
    namedTrade command = some p.debit.tradeInstanceId := by
  simp only [namedTrade, h, operations, AcceptPlan.findSome_walletDebit, Option.map_some]

theorem namedTrade_cancel {p : CancelPlan} (h : command.intent = .cancel)
    (operations : command.operations = p.operations) :
    namedTrade command = some p.state.tradeInstanceId := by
  simp only [namedTrade, h, operations, CancelPlan.findSome_stateTransition, Option.map_some]

theorem Balanced.of_find (h : Balanced b id a)
    (hfind : b'.tradeInstance.find? id = b.tradeInstance.find? id) : Balanced b' id a :=
  ⟨fun hn => h.unissued (hfind ▸ hn), fun t ht => h.explained t (hfind ▸ ht)⟩

theorem Balanced.of_explained (ht : b'.tradeInstance.find? id = some t) (h : Explains a t) :
    Balanced b' id a := by
  constructor
  · intro hn
    rw [ht] at hn
    cases hn
  · intro t₁ ht₁
    obtain rfl := Option.some.inj (ht.symm.trans ht₁)
    exact h

theorem Issued.balanced (h : Balanced b id a)
    (hi : Issued actor tradeInstanceId quantity b b') : Balanced b' id a := by
  obtain ⟨s, s', t, e, trades, escrows, entries, source, sourceOwner, debited, newTrade, tradeId,
    issuer, opened, total, whole, newEscrow, escrowTrade, escrowOwner, unreleased, held⟩ := hi
  have hfind : trades.find? id = if t.tradeInstanceId = id then some t else _ :=
    Table.find?_insert newTrade id
  by_cases hid : t.tradeInstanceId = id
  · have habsent : b.tradeInstance.find? t.tradeInstanceId = none :=
      (Table.insert?_eq_some_iff.1 newTrade).1
    have hopening := h.unissued (hid ▸ habsent)
    refine .of_explained (hfind.trans (if_pos hid)) ?_
    rw [hopening]
    constructor
    · change t.totalQuantity = 0 + 0 + t.remainingQuantity
      omega
    · exact (mul_zero _).symm
  · exact h.of_find (hfind.trans (if_neg hid))

theorem Accepted.holdings (ha : Accepted actor tradeInstanceId quantity b t b') :
    stockOf b' actor = stockOf b actor + quantity ∧
      balanceOf b' t.issuerId = balanceOf b t.issuerId + quantity * t.unitPriceIsk := by
  obtain ⟨state, e, e', w, w', v, v', s, s', rows, x, walletEscrows, walletEntries, stackEntries,
    changes, trade, opened, buyer, positive, range, completion, escrow, escrowTrade, unreleased,
    drawn, payer, payerOwner, paid, seller, sellerOwner, credited, added, destination,
    destinationOwner, delivered, newWalletEscrow, walletEscrowOwner, walletEscrowTrade, closed,
    emptied, changesTrade⟩ := ha
  constructor
  · exact (sum_restocked destination delivered destinationOwner).trans
      (congrArg (· + quantity) (sum_stackAdded added))
  · have hdistinct : Keyed.key w' ≠ v.walletId := by
      intro hk
      have hw : w.walletId = v.walletId := paid.walletId.symm.trans hk
      rw [hw, seller] at payer
      exact buyer (payerOwner.symm.trans (Option.some.inj payer ▸ sellerOwner))
    have hseller := (Table.find?_set_ne hdistinct).trans seller
    have hcredit := sum_repriced t.issuerId hseller credited
    have hdebit := sum_repriced t.issuerId payer paid
    rw [if_pos sellerOwner, hdebit, if_neg (payerOwner ▸ buyer), add_zero] at hcredit
    exact hcredit

theorem Accepted.balanced {p : AcceptPlan} (h : Balanced b id a) (intent : command.intent = .accept)
    (operations : command.operations = p.operations)
    (hactor : command.causedByCapsuleerId = some actor)
    (ha : Accepted actor p.debit.tradeInstanceId p.delivery.quantity b t b') :
    Balanced b' id (a.record id command b b') := by
  obtain ⟨hstock, hbalance⟩ := Accepted.holdings ha
  have hnamed := namedTrade_accept intent operations
  obtain ⟨state, e, e', w, w', v, v', s, s', rows, x, walletEscrows, walletEntries, stackEntries,
    changes, trade, opened, buyer, positive, range, completion, escrow, escrowTrade, unreleased,
    drawn, payer, payerOwner, paid, seller, sellerOwner, credited, added, destination,
    destinationOwner, delivered, newWalletEscrow, walletEscrowOwner, walletEscrowTrade, closed,
    emptied, changesTrade⟩ := ha
  have hfind := find?_set_trade (drawnTrade t p.delivery.quantity state range) trade rfl id
  by_cases hid : p.debit.tradeInstanceId = id
  · subst hid
    obtain ⟨htotal, hcredited⟩ := h.explained t trade
    refine .of_explained (hfind.trans (if_pos rfl)) ?_
    rw [record_of_named hnamed hactor trade, Account.post, intent]
    dsimp only
    rw [hstock, hbalance]
    constructor
    · change t.totalQuantity = a.delivered +
        (stockOf b actor + p.delivery.quantity - stockOf b actor) + a.returned +
        (t.remainingQuantity - p.delivery.quantity)
      omega
    · change a.credited + _ = t.unitPriceIsk * (a.delivered +
        (stockOf b actor + p.delivery.quantity - stockOf b actor))
      rw [hcredited]
      ring
  · rw [record_of_ne (fun hn => hid (Option.some.inj (hnamed.symm.trans hn)))]
    exact h.of_find (hfind.trans (if_neg hid))

theorem Cancelled.trade (hc : Cancelled actor tradeInstanceId b t b') :
    b.tradeInstance.find? tradeInstanceId = some t ∧ t.tradeState = .open ∧
      b'.tradeInstance = b.tradeInstance.set (closedTrade t) := by
  cases hc with
  | sold _ trade _ opened _ _ => exact ⟨trade, opened, rfl⟩
  | returned _ _ _ _ _ _ trade _ opened _ _ _ _ _ _ _ _ _ => exact ⟨trade, opened, rfl⟩

theorem Cancelled.holdings (hc : Cancelled actor tradeInstanceId b t b') :
    stockOf b' t.issuerId = stockOf b t.issuerId + t.remainingQuantity := by
  cases hc with
  | sold _ _ _ _ nothing _ =>
    rw [nothing]
    exact (add_zero _).symm
  | returned e e' s s' entries changes trade issuer opened escrow escrowTrade unreleased held drawn
      destination destinationOwner restocked changesTrade =>
    exact sum_restocked destination restocked (destinationOwner.trans issuer.symm)

theorem Cancelled.balanced {p : CancelPlan} (h : Balanced b id a) (intent : command.intent = .cancel)
    (operations : command.operations = p.operations)
    (hactor : command.causedByCapsuleerId = some actor)
    (hc : Cancelled actor p.state.tradeInstanceId b t b') :
    Balanced b' id (a.record id command b b') := by
  have hstock := Cancelled.holdings hc
  have hnamed := namedTrade_cancel intent operations
  obtain ⟨trade, _, htrades⟩ := Cancelled.trade hc
  have hfind := find?_set_trade (closedTrade t) trade rfl id
  rw [← htrades] at hfind
  by_cases hid : p.state.tradeInstanceId = id
  · subst hid
    obtain ⟨htotal, hcredited⟩ := h.explained t trade
    refine .of_explained (hfind.trans (if_pos rfl)) ?_
    rw [record_of_named hnamed hactor trade, Account.post, intent]
    dsimp only
    rw [hstock]
    constructor
    · change t.totalQuantity = a.delivered + (a.returned +
        (stockOf b t.issuerId + t.remainingQuantity - stockOf b t.issuerId)) + 0
      omega
    · exact hcredited
  · rw [record_of_ne (fun hn => hid (Option.some.inj (hnamed.symm.trans hn)))]
    exact h.of_find (hfind.trans (if_neg hid))

theorem Moved.balanced (h : Balanced b id a) (hactor : command.causedByCapsuleerId = some actor)
    (hm : Moved command actor b b') : Balanced b' id (a.record id command b b') := by
  cases hm with
  | issue p intent operations issued others =>
    rw [record_of_ne (by rw [namedTrade_issue intent]; exact Option.some_ne_none id ∘ Eq.symm)]
    exact Issued.balanced h issued
  | accept p t intent operations accepted left others =>
    exact Accepted.balanced h intent operations hactor accepted
  | cancel p t intent operations cancelled others =>
    exact Cancelled.balanced h intent operations hactor cancelled

theorem Moved.closed_trade (hm : Moved command actor b b')
    (ht : b.tradeInstance.find? id = some t) (hclosed : t.tradeState ≠ .open) :
    b'.tradeInstance.find? id = some t := by
  cases hm with
  | issue p intent operations issued others =>
    obtain ⟨s, s', t₁, e, trades, escrows, entries, source, sourceOwner, debited, newTrade, tradeId,
      _⟩ := issued
    have habsent : b.tradeInstance.find? t₁.tradeInstanceId = none :=
      (Table.insert?_eq_some_iff.1 newTrade).1
    refine (Table.find?_insert newTrade id).trans ((if_neg ?_).trans ht)
    intro hid
    have hsame : t₁.tradeInstanceId = id := hid
    rw [hsame, ht] at habsent
    cases habsent
  | accept p t₁ intent operations accepted left others =>
    obtain ⟨state, e, e', w, w', v, v', s, s', rows, x, walletEscrows, walletEntries, stackEntries,
      changes, trade, opened, buyer, positive, range, _⟩ := accepted
    refine (find?_set_trade (drawnTrade t₁ _ state range) trade rfl id).trans ((if_neg ?_).trans ht)
    rintro rfl
    obtain rfl := Option.some.inj (ht.symm.trans trade)
    exact hclosed opened
  | cancel p t₁ intent operations cancelled others =>
    obtain ⟨trade, opened, htrades⟩ := Cancelled.trade cancelled
    rw [htrades]
    refine (find?_set_trade (closedTrade t₁) trade rfl id).trans ((if_neg ?_).trans ht)
    rintro rfl
    obtain rfl := Option.some.inj (ht.symm.trans trade)
    exact hclosed opened

end Accounts

section Histories

variable {ext : External} {db : Db} {id : Uuid} {a : Account} {t : TradeInstanceRow}
  {calls : List (ExecEnv × ExecuteBatchCommand)}

theorem runCalls_balanced (hb : Book db.business) (h : Balanced db.business id a)
    (hintents : ∀ call ∈ calls, call.2.intent ≠ .unspecified) :
    Balanced (runCalls ext calls db).business id (account ext id calls db a) := by
  induction calls generalizing db a with
  | nil => exact h
  | cons call calls ih =>
    obtain ⟨env, command⟩ := call
    obtain ⟨hintent, hintents⟩ := List.forall_mem_cons.1 hintents
    refine ih (executeBatch_book ext env hb hintent) ?_ hintents
    rcases executeBatch_moves ext env hb hintent with ⟨hnot, hsame⟩ | ⟨hcommits, actor, hactor, hm⟩
    · rw [if_neg (by rw [hnot]; exact Bool.false_ne_true), hsame]
      exact h
    · rw [if_pos hcommits]
      exact Moved.balanced h hactor hm

theorem runCalls_closed_trade (hb : Book db.business)
    (ht : db.business.tradeInstance.find? id = some t) (hclosed : t.tradeState ≠ .open)
    (hintents : ∀ call ∈ calls, call.2.intent ≠ .unspecified) :
    (runCalls ext calls db).business.tradeInstance.find? id = some t := by
  induction calls generalizing db with
  | nil => exact ht
  | cons call calls ih =>
    obtain ⟨env, command⟩ := call
    obtain ⟨hintent, hintents⟩ := List.forall_mem_cons.1 hintents
    refine ih (executeBatch_book ext env hb hintent) ?_ hintents
    rcases executeBatch_moves ext env hb hintent with ⟨_, hsame⟩ | ⟨_, actor, _, hm⟩
    · rw [hsame]
      exact ht
    · exact Moved.closed_trade hm ht hclosed

/-- At most one unreleased escrow backs the trade, and it holds exactly what remains of it. -/
structure Backed (b : Business) (t : TradeInstanceRow) : Prop where
  sole : ∀ e ∈ b.itemStackEscrow.rows, ∀ f ∈ b.itemStackEscrow.rows,
    e.tradeInstanceId = t.tradeInstanceId → f.tradeInstanceId = t.tradeInstanceId →
    e.isReleased = false → f.isReleased = false → e = f
  held : ∀ e ∈ b.itemStackEscrow.rows, e.tradeInstanceId = t.tradeInstanceId →
    e.isReleased = false → t.remainingQuantity = e.quantity
  unbacked : (∀ e ∈ b.itemStackEscrow.rows, e.tradeInstanceId = t.tradeInstanceId →
    e.isReleased = true) → t.remainingQuantity = 0

theorem Book.backed {b : Business} (hb : Book b) (ht : b.tradeInstance.find? id = some t) :
    Backed b t where
  sole := fun e he f hf het hft heu hfu => hb.escrowSole e he f hf heu hfu (het.trans hft.symm)
  held := by
    intro e he htrade hunreleased
    refine (hb.escrowHolds e he hunreleased).2 t ?_
    have hid : t.tradeInstanceId = id := Table.find?_some_key ht
    rw [htrade, hid]
    exact ht
  unbacked := hb.tradeHolds t (Table.find?_some_mem ht)

/-- After every sequence of calls with an intent, every trade is backed by its escrow and explained
by its account, no wallet escrow is open, and closed trades are empty and stay as they are. -/
theorem trades_accounted (ext : External) (calls later : List (ExecEnv × ExecuteBatchCommand))
    (db : Db) (empty : NoTrades db.business)
    (intents : ∀ call ∈ calls, call.2.intent ≠ .unspecified)
    (laterIntents : ∀ call ∈ later, call.2.intent ≠ .unspecified) :
    (∀ x ∈ (runCalls ext calls db).business.walletEscrow.rows,
      x.isReleased = true ∧ x.iskAmount = 0) ∧
    ∀ id t, (runCalls ext calls db).business.tradeInstance.find? id = some t →
      Backed (runCalls ext calls db).business t ∧
      Explains (account ext id calls db .opening) t ∧
      (t.tradeState ≠ .open → t.remainingQuantity = 0 ∧
        (runCalls ext later (runCalls ext calls db)).business.tradeInstance.find? id = some t) := by
  have hbook := runCalls_book ext empty.book intents
  refine ⟨hbook.walletEscrowClosed, fun id t ht => ⟨Book.backed hbook ht, ?_, fun hclosed => ?_⟩⟩
  · have hunissued : db.business.tradeInstance.find? id = none :=
      Table.find?_eq_none_iff.2 (by simp [empty.tradeInstance])
    have hopening : Balanced db.business id .opening :=
      ⟨fun _ => rfl, fun t₀ ht₀ => by rw [hunissued] at ht₀; cases ht₀⟩
    exact (runCalls_balanced empty.book hopening intents).explained t ht
  · exact ⟨hbook.tradeClosed t (Table.find?_some_mem ht) hclosed,
      runCalls_closed_trade hbook ht hclosed laterIntents⟩

end Histories

section Seeded

open LocalDevWorld

/-- Four of ten items are sold, then the trade is cancelled; a later acceptance is refused. -/
def soldAndCancelled : List (ExecEnv × ExecuteBatchCommand) :=
  offerOfTen ++ [(quietEnv 200, acceptFour),
    (quietEnv 300, cancelTradeCommand "cancel" tradeId escrowId 6 none)]

def lateAcceptance : List (ExecEnv × ExecuteBatchCommand) :=
  [(quietEnv 400, acceptTradeCommand "late" tradeId escrowId (.ofNat 0x74) 1 false none)]

theorem trades_accounted_soldAndCancelled :
    account transparent tradeId soldAndCancelled (localDevWorld transparent) .opening =
      ⟨4, 6, 100⟩ ∧
    ∃ t, (runCalls transparent soldAndCancelled
        (localDevWorld transparent)).business.tradeInstance.find? tradeId = some t ∧
      Explains (account transparent tradeId soldAndCancelled (localDevWorld transparent) .opening)
        t := by
  have hissued : ((runCalls transparent soldAndCancelled
      (localDevWorld transparent)).business.tradeInstance.find? tradeId).isSome = true := by
    decide +kernel
  obtain ⟨t, ht⟩ := Option.isSome_iff_exists.1 hissued
  have haccounted := trades_accounted transparent soldAndCancelled lateAcceptance
    (localDevWorld transparent) ⟨rfl, rfl, rfl⟩ (by decide) (by decide)
  exact ⟨by decide +kernel, t, ht, (haccounted.2 tradeId t ht).2.1⟩

end Seeded

end EveTrade.TradeAccounting
