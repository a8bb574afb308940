import EveTrade.MarketHandler
import EveTrade.PlanConversion
import EveTrade.TradeCalls

set_option autoImplicit false

/-!
# Planning and settling

The market plans each request from some state that has been committed; the plan is queued, and
executed any number of times, at any later moment. Between the two, other plans are settled.
-/
namespace EveTrade.MarketPlanning

open KeyedTable UuidText SettlementTypes SettlementCommands SettlementSchema SettlementPlan
  SettlementExecutor SettlementWork SettlementService SettlementDelivery TradeBook TradeFrames
  TradeCalls GameTrade MarketRequests MarketRepository MarketHandler PlanConversion

/-- A request with the committed state it was planned from and the work it became. -/
structure Planned (ext : External) where
  request : Request
  now : DateTime
  snapshot : Db
  work : Work
  planned : request.work? ext now snapshot = some work

/-- Planned work under the operation it was queued as. -/
structure Message (ext : External) where
  plan : Planned ext
  operation : SettlementOperationStatus

def Message.work {ext : External} (m : Message ext) : Work := queuedWork m.plan.work m.operation

structure World (ext : External) where
  db : Db
  committed : List Db
  plans : List (Planned ext)
  topic : List (Message ext)

inductive Action where
  | plan (request : Request) (snapshot : ℕ) (now : DateTime)
  | queue (plan : ℕ) (operationId : Uuid) (now : DateTime)
  | update (request : UpdateSettlementOperationRequest)
  | execute (message : ℕ) (env : ExecEnv) (now : DateTime)

section Runs

variable (ext : External)

def start (db : Db) : World ext := ⟨db, [db], [], []⟩

variable {ext}

def World.commit (w : World ext) (db : Db) : World ext :=
  { w with db := db, committed := w.committed ++ [db] }

def executeMessage (env : ExecEnv) (now : DateTime) (m : Message ext) (db : Db) :
    Option ExecuteSettlementBatchResponse × Db :=
  match toProtoRequest ext now m.work with
  | .error _ => (none, db)
  | .ok request =>
    let r := executeSettlementBatch ext env now request db
    (r.1.toOption, r.2)

def afterQueueing (w : World ext) (plan : Planned ext) :
    Except Status SettlementOperationStatus × Db → World ext
  | (.error _, db) => w.commit db
  | (.ok operation, db) => { w.commit db with topic := w.topic ++ [⟨plan, operation⟩] }

def planFrom (request : Request) (now : DateTime) (snapshot : Db) (w : World ext) : World ext :=
  match h : request.work? ext now snapshot with
  | none => w
  | some work => { w with plans := w.plans ++ [⟨request, now, snapshot, work, h⟩] }

def perform (a : Action) (w : World ext) : World ext :=
  match a with
  | .plan request snapshot now =>
    match w.committed[snapshot]? with
    | none => w
    | some db => planFrom request now db w
  | .queue plan operationId now =>
    match w.plans[plan]? with
    | none => w
    | some p =>
      afterQueueing w p (queueSettlementOperation now operationId (queueRequest p.work) w.db)
  | .update request => w.commit (updateSettlementOperation request w.db).2
  | .execute message env now =>
    match w.topic[message]? with
    | none => w
    | some m => w.commit (executeMessage env now m w.db).2

def run : List Action → World ext → World ext
  | [], w => w
  | a :: actions, w => run actions (perform a w)

end Runs

section Condition

variable {ext : External}

def settles : Option ExecuteSettlementBatchResponse → Bool
  | some response => !response.idempotentReplay
  | none => false

def TakesAll (m : AcceptTradeInstanceRequest) (b : Business) : Prop :=
  ∃ id t, requiredUuid m.tradeInstanceId "trade_instance_id" = .ok id ∧
    b.tradeInstance.find? id = some t ∧ t.remainingQuantity = m.quantityRequested

def SawAll (m : AcceptTradeInstanceRequest) (snapshot : Db) : Prop :=
  ∀ trade, loadTrade snapshot m.tradeInstanceId = .ok trade →
    m.quantityRequested = trade.escrowQuantity

/-- An acceptance that empties its trade was planned from a state in which it would do so. -/
def Timely (w : World ext) : Action → Prop
  | .execute message env now => ∀ m, w.topic[message]? = some m →
      settles (executeMessage env now m w.db).1 = true →
      ∀ r, m.plan.request = .accept r → TakesAll r w.db.business → SawAll r m.plan.snapshot
  | _ => True

def TimelyRun : List Action → World ext → Prop
  | [], _ => True
  | a :: actions, w => Timely w a ∧ TimelyRun actions (perform a w)

/-- Exactly the trades of which something remains are open. -/
def OpenWhileRemaining (trades : Table TradeInstanceRow) : Prop :=
  ∀ t ∈ trades.rows, t.tradeState = .open ↔ 0 < t.remainingQuantity

instance (trades : Table TradeInstanceRow) : Decidable (OpenWhileRemaining trades) :=
  inferInstanceAs (Decidable (∀ t ∈ trades.rows, _))

end Condition

section Trades

variable {actor : Int} {tradeInstanceId : Uuid} {quantity : Int} {b b' : Business}
  {t : TradeInstanceRow} {command : ExecuteBatchCommand}

theorem openWhileRemaining_set (t' : TradeInstanceRow) (h : OpenWhileRemaining b.tradeInstance)
    (trade : b.tradeInstance.find? tradeInstanceId = some t)
    (tradeId : t'.tradeInstanceId = t.tradeInstanceId) :
    OpenWhileRemaining (b.tradeInstance.set t') ↔
      (t'.tradeState = .open ↔ 0 < t'.remainingQuantity) := by
  have hkey : Keyed.key t' = tradeInstanceId := tradeId.trans (Table.find?_some_key trade)
  constructor
  · intro hset
    exact hset t' (Table.mem_set.2 (.inl ⟨rfl, t, hkey ▸ trade⟩))
  · intro ht' x hx
    rcases Table.mem_set.1 hx with ⟨rfl, _⟩ | ⟨hx, _⟩
    · exact ht'
    · exact h x hx

theorem openWhileRemaining_issued (h : OpenWhileRemaining b.tradeInstance)
    (issued : Issued actor tradeInstanceId quantity b b') : OpenWhileRemaining b'.tradeInstance := by
  obtain ⟨s, s', t, e, trades, escrows, entries, source, sourceOwner, debited, newTrade, tradeId,
    issuer, opened, total, whole, _⟩ := issued
  intro x hx
  rcases (Table.mem_insert newTrade).1 hx with hx | rfl
  · exact h x hx
  · have hpos := x.totalQuantity_pos
    rw [total, ← whole] at hpos
    exact iff_of_true opened hpos

theorem openWhileRemaining_cancelled (h : OpenWhileRemaining b.tradeInstance)
    (cancelled : Cancelled actor tradeInstanceId b t b') :
    OpenWhileRemaining b'.tradeInstance := by
  have hclosed : (closedTrade t).tradeState = .open ↔ 0 < (closedTrade t).remainingQuantity :=
    iff_of_false TradeState.noConfusion (lt_irrefl 0)
  cases cancelled with
  | sold changes trade => exact (openWhileRemaining_set (closedTrade t) h trade rfl).2 hclosed
  | returned e e' s s' entries changes trade =>
    exact (openWhileRemaining_set (closedTrade t) h trade rfl).2 hclosed

theorem openWhileRemaining_accepted {state : TradeState} (h : OpenWhileRemaining b.tradeInstance)
    (accepted : Accepted actor tradeInstanceId quantity b t b')
    (left : LeftIn b' tradeInstanceId state) :
    b.tradeInstance.find? tradeInstanceId = some t ∧
      (OpenWhileRemaining b'.tradeInstance ↔ (t.remainingQuantity = quantity → state ≠ .open)) := by
  obtain ⟨after, e, e', w, w', v, v', s, s', rows, x, walletEscrows, walletEntries, stackEntries,
    changes, trade, opened, buyer, positive, range, completion, _⟩ := accepted
  obtain ⟨t', found, rfl⟩ := left
  have hfound := find?_set_trade (drawnTrade t quantity after range) trade rfl tradeInstanceId
  rw [if_pos rfl] at hfound
  obtain rfl := Option.some.inj (hfound.symm.trans found)
  refine ⟨trade, (openWhileRemaining_set (drawnTrade t quantity after range) h trade rfl).trans ?_⟩
  have hrange := range.1
  change (after = .open ↔ 0 < t.remainingQuantity - quantity) ↔
    (t.remainingQuantity = quantity → after ≠ .open)
  rcases completion with hopen | ⟨hcompleted, hall⟩
  · rw [hopen]
    constructor
    · intro hiff hall
      have := hiff.1 rfl
      omega
    · intro hnot
      refine iff_of_true rfl ?_
      have : t.remainingQuantity ≠ quantity := fun hall => hnot hall rfl
      omega
  · rw [hcompleted]
    refine iff_of_true (iff_of_false TradeState.noConfusion ?_) fun _ => TradeState.noConfusion
    omega

end Trades

section Steps

variable {ext : External} {w : World ext}

theorem settlementIntent_accept {request : Request}
    (h : settlementIntent request.intent = .accept) : ∃ r, request = .accept r := by
  cases request with
  | issue m =>
    change settlementIntent intentIssue = .accept at h
    exact absurd h (by decide)
  | accept m => exact ⟨m, rfl⟩
  | cancel m =>
    change settlementIntent intentCancel = .accept at h
    exact absurd h (by decide)

theorem executeMessage_cases (env : ExecEnv) (now : DateTime) (m : Message ext) {db : Db}
    (hb : Book db.business) :
    (settles (executeMessage env now m db).1 = false ∧
      (executeMessage env now m db).2.business = db.business) ∨
    (settles (executeMessage env now m db).1 = true ∧
      ∃ command actor, Converted (requestOf m.work) command ∧
        Moved command actor db.business (executeMessage env now m db).2.business) := by
  unfold executeMessage
  cases hproto : toProtoRequest ext now m.work with
  | error e => exact .inl ⟨rfl, rfl⟩
  | ok request =>
    obtain rfl := toProtoRequest_eq_ok hproto
    dsimp only
    unfold executeSettlementBatch
    cases hfrom : tryFrom ext now (requestOf m.work) with
    | error e => exact .inl ⟨rfl, rfl⟩
    | ok command =>
      have hconverted := tryFrom_eq_ok hfrom
      dsimp only
      have hsettles : ∀ r : Except SettlementError BatchExecutionResult × Db,
          settles (answer r).1.toOption = commits r.1 := by
        rintro ⟨_ | _, _⟩ <;> rfl
      rw [hsettles, answer_db]
      rcases executeBatch_moves ext env hb hconverted.specified with h | ⟨h, actor, _, hmoved⟩
      · exact .inl h
      · exact .inr ⟨h, command, actor, hconverted, hmoved⟩

theorem accept_of_moved {m : Message ext} {command : ExecuteBatchCommand}
    (hconverted : Converted (requestOf m.work) command) (intent : command.intent = .accept)
    {p : AcceptPlan} (operations : command.operations = p.operations) :
    ∃ r trade, m.plan.request = .accept r ∧
      loadTrade m.plan.snapshot r.tradeInstanceId = .ok trade ∧
      requiredUuid r.tradeInstanceId "trade_instance_id" = .ok p.debit.tradeInstanceId ∧
      p.delivery.quantity = r.quantityRequested ∧
      (leavesTrade p = .open ↔ r.quantityRequested ≠ trade.escrowQuantity) := by
  have hplanned := m.plan.planned
  have hcarries := work?_carries hplanned
  obtain ⟨r, hr⟩ : ∃ r, m.plan.request = .accept r := by
    apply settlementIntent_accept
    rw [← hcarries.intent]
    exact hconverted.intent.symm.trans intent
  rw [hr] at hplanned
  obtain ⟨trade, sellerWallet, iskAmountPaid, destination, walletEscrow, htrade, hoperations⟩ :=
    accept_work hplanned
  have hcommands : toCommands m.plan.work.operations = .ok command.operations :=
    hconverted.operations
  rw [hoperations] at hcommands
  obtain ⟨p', hp', hinput⟩ := acceptPlan_toCommands hcommands
  obtain rfl : p = p' := acceptOperations_injective (operations.symm.trans hp')
  refine ⟨r, trade, hr, htrade, hinput.trade, hinput.quantity, ?_⟩
  have hcompletes : p.completion.isSome = decide (r.quantityRequested = trade.escrowQuantity) :=
    hinput.completes
  unfold leavesTrade
  by_cases hall : r.quantityRequested = trade.escrowQuantity
  · simp [hcompletes, hall]
  · simp [hcompletes, hall]

/-- Executing a message keeps the trades in order exactly when it is timely. -/
theorem execute_openWhileRemaining (message : ℕ) (env : ExecEnv) (now : DateTime) {m : Message ext}
    (hm : w.topic[message]? = some m) (hb : Book w.db.business)
    (h : OpenWhileRemaining w.db.business.tradeInstance) :
    OpenWhileRemaining (executeMessage env now m w.db).2.business.tradeInstance ↔
      Timely w (.execute message env now) := by
  have htimely : Timely w (.execute message env now) ↔
      (settles (executeMessage env now m w.db).1 = true → ∀ r, m.plan.request = .accept r →
        TakesAll r w.db.business → SawAll r m.plan.snapshot) := by
    constructor
    · exact fun ht => ht m hm
    · intro ht m' hm'
      obtain rfl := Option.some.inj (hm.symm.trans hm')
      exact ht
  rw [htimely]
  rcases executeMessage_cases env now m hb with ⟨hnot, hsame⟩ | ⟨hsettles, command, actor,
    hconverted, hmoved⟩
  · rw [hsame]
    refine iff_of_true h fun hsettles => ?_
    rw [hnot] at hsettles
    cases hsettles
  -- only an acceptance can be untimely, so the other two intents rule it out
  have hother : command.intent ≠ .accept → ∀ r, m.plan.request ≠ .accept r := by
    intro hne r hr
    apply hne
    rw [hconverted.intent]
    change settlementIntent m.plan.work.intent = .accept
    rw [(work?_carries m.plan.planned).intent, hr]
    rfl
  cases hmoved with
  | issue p intent operations issued others =>
    refine iff_of_true (openWhileRemaining_issued h issued) fun _ r hr => ?_
    exact absurd hr (hother (by rw [intent]; decide) r)
  | cancel p t intent operations cancelled others =>
    refine iff_of_true (openWhileRemaining_cancelled h cancelled) fun _ r hr => ?_
    exact absurd hr (hother (by rw [intent]; decide) r)
  | accept p t intent operations accepted left others =>
    obtain ⟨r, trade, hr, hload, htrade, hquantity, hleaves⟩ :=
      accept_of_moved hconverted intent operations
    obtain ⟨hfound, hiff⟩ := openWhileRemaining_accepted h accepted left
    rw [hiff, hquantity]
    constructor
    · intro hempties _ r' hr' htakes trade' hload'
      obtain rfl : r = r' := Request.accept.inj (hr.symm.trans hr')
      obtain rfl := Except.ok.inj (hload.symm.trans hload')
      obtain ⟨id, t', hid, ht', hall⟩ := htakes
      obtain rfl := Except.ok.inj (htrade.symm.trans hid)
      obtain rfl := Option.some.inj (hfound.symm.trans ht')
      by_contra hsaw
      exact hempties hall (hleaves.2 hsaw)
    · intro hsaw hall hopen
      exact hleaves.1 hopen
        (hsaw hsettles r hr ⟨_, t, htrade, hfound, hall⟩ trade hload)

theorem queueSettlementOperation_business (now : DateTime) (id : Uuid)
    (request : QueueSettlementOperationRequest) (db : Db) :
    (queueSettlementOperation now id request db).2.business = db.business := by
  rcases queueSettlementOperation_cases now id request db with ⟨_, h⟩ | ⟨_, _, _, h⟩ | ⟨_, _, _, h⟩ <;>
    rw [h]

theorem updateSettlementOperation_business (request : UpdateSettlementOperationRequest) (db : Db) :
    (updateSettlementOperation request db).2.business = db.business := by
  rcases updateSettlementOperation_cases request db with ⟨_, h⟩ | ⟨_, _, _, h⟩ <;> rw [h]

/-- What one action commits: nothing, rows with the same business, or an executed message. -/
inductive Commits (w : World ext) : Action → World ext → Prop
  | nothing (a : Action) (w' : World ext) (db : w'.db = w.db) (committed : w'.committed = w.committed)
      (timely : Timely w a) : Commits w a w'
  | lifecycle (a : Action) (w' : World ext) (business : w'.db.business = w.db.business)
      (committed : w'.committed = w.committed ++ [w'.db]) (timely : Timely w a) : Commits w a w'
  | executed (message : ℕ) (env : ExecEnv) (now : DateTime) (m : Message ext)
      (hm : w.topic[message]? = some m) :
      Commits w (.execute message env now) (w.commit (executeMessage env now m w.db).2)

theorem planFrom_frame (request : Request) (now : DateTime) (snapshot : Db) (w : World ext) :
    (planFrom request now snapshot w).db = w.db ∧
      (planFrom request now snapshot w).committed = w.committed := by
  unfold planFrom
  split <;> exact ⟨rfl, rfl⟩

theorem perform_commits (a : Action) (w : World ext) : Commits w a (perform a w) := by
  cases a with
  | plan request snapshot now =>
    cases hs : w.committed[snapshot]? with
    | none =>
      simp only [perform, hs]
      exact .nothing _ _ rfl rfl trivial
    | some db =>
      simp only [perform, hs]
      obtain ⟨hdb, hcommitted⟩ := planFrom_frame request now db w
      exact .nothing _ _ hdb hcommitted trivial
  | queue plan operationId now =>
    cases hp : w.plans[plan]? with
    | none =>
      simp only [perform, hp]
      exact .nothing _ _ rfl rfl trivial
    | some p =>
      have hbusiness := queueSettlementOperation_business now operationId (queueRequest p.work) w.db
      simp only [perform, hp]
      generalize queueSettlementOperation now operationId (queueRequest p.work) w.db = r at hbusiness ⊢
      obtain ⟨_ | _, db⟩ := r
      · exact .lifecycle _ _ hbusiness rfl trivial
      · exact .lifecycle _ _ hbusiness rfl trivial
  | update request =>
    exact .lifecycle _ _ (updateSettlementOperation_business request w.db) rfl trivial
  | execute message env now =>
    cases hm : w.topic[message]? with
    | none =>
      simp only [perform, hm]
      refine .nothing _ _ rfl rfl fun m hm' => ?_
      rw [hm] at hm'
      cases hm'
    | some m =>
      simp only [perform, hm]
      exact .executed message env now m hm

/-- Everything committed so far is in order. -/
structure InOrder (w : World ext) : Prop where
  book : Book w.db.business
  now : OpenWhileRemaining w.db.business.tradeInstance
  past : ∀ db ∈ w.committed, OpenWhileRemaining db.business.tradeInstance

theorem committed_commit {w : World ext} {db : Db} {P : Db → Prop}
    (h : ∀ d ∈ w.committed, P d) : (∀ d ∈ w.committed ++ [db], P d) ↔ P db := by
  constructor
  · exact fun hall => hall db (List.mem_append_right _ (List.mem_singleton_self db))
  · intro hdb d hd
    rcases List.mem_append.1 hd with hd | hd
    · exact h d hd
    · rw [List.mem_singleton.1 hd]
      exact hdb

theorem executeMessage_book (env : ExecEnv) (now : DateTime) (m : Message ext) {db : Db}
    (hb : Book db.business) : Book (executeMessage env now m db).2.business := by
  rcases executeMessage_cases env now m hb with ⟨_, hsame⟩ | ⟨_, command, actor, _, hmoved⟩
  · rw [hsame]
    exact hb
  · exact hmoved.book hb

/-- One action keeps what is committed in order exactly when it is timely. -/
theorem perform_inOrder (a : Action) (h : InOrder w) :
    (∀ db ∈ (perform a w).committed, OpenWhileRemaining db.business.tradeInstance) ↔ Timely w a := by
  have hcommits := perform_commits a w
  generalize perform a w = w' at hcommits ⊢
  cases hcommits with
  | nothing _ _ db committed timely =>
    rw [committed]
    exact iff_of_true h.past timely
  | lifecycle _ _ business committed timely =>
    rw [committed, committed_commit h.past, business]
    exact iff_of_true h.now timely
  | executed message env now m hm =>
    refine Iff.trans (committed_commit h.past) ?_
    exact execute_openWhileRemaining message env now hm h.book h.now

theorem perform_preserves (a : Action) (h : InOrder w) (ht : Timely w a) :
    InOrder (perform a w) := by
  have hpast := (perform_inOrder a h).2 ht
  have hcommits := perform_commits a w
  generalize perform a w = w' at hcommits hpast ⊢
  cases hcommits with
  | nothing _ _ db committed timely =>
    refine ⟨?_, ?_, hpast⟩
    · rw [db]
      exact h.book
    · rw [db]
      exact h.now
  | lifecycle _ _ business committed timely =>
    refine ⟨?_, ?_, hpast⟩
    · rw [business]
      exact h.book
    · rw [business]
      exact h.now
  | executed message env now m hm =>
    exact ⟨executeMessage_book env now m h.book,
      (execute_openWhileRemaining message env now hm h.book h.now).2 ht, hpast⟩

theorem perform_committed (a : Action) (w : World ext) :
    ∀ db ∈ w.committed, db ∈ (perform a w).committed := by
  intro db hdb
  have hcommits := perform_commits a w
  generalize perform a w = w' at hcommits ⊢
  cases hcommits with
  | nothing _ _ _ committed _ => exact committed ▸ hdb
  | lifecycle _ _ _ committed _ => exact committed ▸ List.mem_append_left _ hdb
  | executed message env now m hm => exact List.mem_append_left _ hdb

theorem run_committed (actions : List Action) (w : World ext) :
    ∀ db ∈ w.committed, db ∈ (run actions w).committed := by
  induction actions generalizing w with
  | nil => exact fun db hdb => hdb
  | cons a actions ih => exact fun db hdb => ih (perform a w) db (perform_committed a w db hdb)

theorem run_inOrder (actions : List Action) (h : InOrder w) :
    (∀ db ∈ (run actions w).committed, OpenWhileRemaining db.business.tradeInstance) ↔
      TimelyRun actions w := by
  induction actions generalizing w with
  | nil => exact iff_of_true h.past trivial
  | cons a actions ih =>
    constructor
    · intro hall
      have ht : Timely w a := (perform_inOrder a h).1 fun db hdb =>
        hall db (run_committed actions (perform a w) db hdb)
      exact ⟨ht, (ih (perform_preserves a h ht)).1 hall⟩
    · rintro ⟨ht, hrest⟩
      exact (ih (perform_preserves a h ht)).2 hrest

theorem start_inOrder {db : Db} (empty : NoTrades db.business) : InOrder (start ext db) := by
  have h : OpenWhileRemaining db.business.tradeInstance := by
    intro t ht
    rw [empty.tradeInstance] at ht
    cases ht
  refine ⟨empty.book, h, fun d hd => ?_⟩
  rw [List.mem_singleton.1 hd]
  exact h

/-- In every state committed by a run, the open trades are those of which something remains,
exactly when every acceptance that empties a trade was planned as one that does. -/
theorem trades_open_iff_timely (ext : External) (db : Db) (empty : NoTrades db.business)
    (actions : List Action) :
    (∀ d ∈ (run actions (start ext db)).committed, OpenWhileRemaining d.business.tradeInstance) ↔
      TimelyRun actions (start ext db) :=
  run_inOrder actions (start_inOrder empty)

end Steps

section Seeded

open LocalDevWorld

def offer : Request := .issue {
  idempotencyKey := "issue"
  externalRequestId := "issue"
  issuedByCapsuleerId := sellerId
  itemStack := some ⟨sourceStackId.text, sellerId, 34, 60003760, 100⟩
  quantity := 10
  unitPriceIsk := 25
  expiresAt := none }

def offeredTradeId : String :=
  (deterministicId hexadecimal "issue" "trade-instance").toOption.getD ""

def take (key : String) (capsuleerId : Int) (walletId stackId : Uuid) (quantity : Int) : Request :=
  .accept {
    idempotencyKey := key
    externalRequestId := key
    tradeInstanceId := offeredTradeId
    buyerCapsuleerId := capsuleerId
    quantityRequested := quantity
    buyerWalletId := walletId.text
    buyerDestinationItemStackId := stackId.text }

def offering : List Action :=
  [.plan offer 0 0, .queue 0 (.ofNat 0x51) 0, .execute 0 (quietEnv 100) 0]

def concurrentBuyers : List Action :=
  offering ++ [.plan (take "four" buyerId buyerWalletId buyerStackId 4) 2 0,
    .plan (take "six" otherId otherWalletId otherOwnerStackId 6) 2 0,
    .queue 1 (.ofNat 0x52) 0, .queue 2 (.ofNat 0x53) 0,
    .execute 1 (quietEnv 200) 0, .execute 2 (quietEnv 300) 0]

/-- Both take what they asked for; all is sold, and the trade is left open. -/
theorem concurrentBuyers_leave_open :
    ∃ d ∈ (run concurrentBuyers (start hexadecimal (localDevWorld hexadecimal))).committed,
      d.business.tradeInstance.rows.map (fun t => (t.tradeState, t.remainingQuantity)) =
        [(.open, 0)] := by decide +kernel

def onlyBuyer : List Action :=
  offering ++ [.plan (take "ten" buyerId buyerWalletId buyerStackId 10) 2 0,
    .queue 1 (.ofNat 0x52) 0, .execute 1 (quietEnv 200) 0]

theorem trades_open_iff_timely_onlyBuyer :
    TimelyRun onlyBuyer (start hexadecimal (localDevWorld hexadecimal)) :=
  (trades_open_iff_timely hexadecimal (localDevWorld hexadecimal) ⟨rfl, rfl, rfl⟩ onlyBuyer).1
    (by decide +kernel)

end Seeded

end EveTrade.MarketPlanning
