import EveTrade.SettlementEffects

set_option autoImplicit false

namespace EveTrade.SettlementOperationSpecs

open KeyedTable TransactionMonad UuidText SettlementTypes SettlementCommands SettlementSchema
  SettlementStatements SettlementOperations SettlementEffects

variable {ext : External} {ctx : StepContext} {s s' : OpSession} {b b' : Business}
  {checks : List DeferredCheck} {β : Type} {r : β × OpSession}

section Statements

variable {f : Int → OpTx β} {id : Uuid}

@[simp] theorem execute_eq_ok {f : Statement} {r : Unit × OpSession} :
    execute f s = .ok r ↔
      s.nextFault = none ∧ ∃ b checks, f s.data = .ok (b, checks) ∧ r.2 = s.wrote b checks := by
  unfold execute
  rw [Tx.statement_eq_ok]
  cases h : f s.data with
  | error e => simp
  | ok p =>
    obtain ⟨b, checks⟩ := p
    simp

@[simp] theorem execute_bind_eq_ok {f : Statement} {g : Unit → OpTx β} :
    (execute f >>= g) s = .ok r ↔ s.nextFault = none ∧
      ∃ b checks, f s.data = .ok (b, checks) ∧ g () (s.wrote b checks) = .ok r := by
  rw [Tx.unit_bind_eq_ok]
  simp only [execute_eq_ok]
  exact ⟨fun ⟨_, ⟨hn, b, checks, hrun, hs⟩, hg⟩ => ⟨hn, b, checks, hrun, hs ▸ hg⟩,
    fun ⟨hn, b, checks, hrun, hg⟩ => ⟨_, ⟨hn, b, checks, hrun, rfl⟩, hg⟩⟩

@[simp] theorem select_bind_eq_ok {α : Type} {read : Business → α} {f : α → OpTx β} :
    (select read >>= f) s = .ok r ↔
      s.nextFault = none ∧ f (read s.data) (s.wrote s.data []) = .ok r :=
  Tx.query_bind_eq_ok

@[simp] theorem selectSum_bind_eq_ok {read : Business → Int} :
    (selectSum read >>= f) s = .ok r ↔
      s.nextFault = none ∧ InI64 (read s.data) ∧ f (read s.data) (s.wrote s.data []) = .ok r := by
  rw [Tx.bind_eq_ok]
  constructor
  · rintro ⟨a, s', h, hf⟩
    unfold selectSum at h
    obtain ⟨hn, data, checks, hrun, hs⟩ := Tx.statement_eq_ok.1 h
    split_ifs at hrun with hi
    simp only [Except.ok.injEq, Prod.mk.injEq] at hrun
    obtain ⟨rfl, rfl, rfl⟩ := hrun
    exact ⟨hn, hi, hs ▸ hf⟩
  · rintro ⟨hn, hi, hf⟩
    refine ⟨read s.data, s.wrote s.data [], ?_, hf⟩
    unfold selectSum
    rw [Tx.statement_eq_ok]
    exact ⟨hn, s.data, [], by rw [if_pos hi], rfl⟩

/-- A row that has to be there. -/
theorem lookup_bind_eq_ok {α : Type} {read : Business → Option α} {e : SettlementError}
    {f : α → OpTx β} :
    ((select read >>= fun row => Tx.fromOption row e) >>= f) s = .ok r ↔ s.nextFault = none ∧
      ∃ t, read s.data = some t ∧ f t (s.wrote s.data []) = .ok r := by
  rw [Tx.bind_eq_ok]
  simp only [select_bind_eq_ok, Tx.fromOption_eq_ok]
  constructor
  · rintro ⟨t, _, ⟨hn, ht, rfl⟩, hf⟩
    exact ⟨hn, t, ht, hf⟩
  · rintro ⟨hn, t, ht, hf⟩
    exact ⟨t, _, ⟨hn, ht, rfl⟩, hf⟩

@[simp] theorem lockTradeInstance_bind_eq_ok {f : TradeInstanceRow → OpTx β} :
    (lockTradeInstance id >>= f) s = .ok r ↔ s.nextFault = none ∧
      ∃ t, s.data.tradeInstance.find? id = some t ∧ f t (s.wrote s.data []) = .ok r :=
  lookup_bind_eq_ok

@[simp] theorem lockItemStack_bind_eq_ok {f : ItemStackRow → OpTx β} :
    (lockItemStack id >>= f) s = .ok r ↔ s.nextFault = none ∧
      ∃ t, s.data.itemStack.find? id = some t ∧ f t (s.wrote s.data []) = .ok r :=
  lookup_bind_eq_ok

@[simp] theorem lockItemStackEscrow_bind_eq_ok {f : ItemStackEscrowRow → OpTx β} :
    (lockItemStackEscrow id >>= f) s = .ok r ↔ s.nextFault = none ∧
      ∃ t, s.data.itemStackEscrow.find? id = some t ∧ f t (s.wrote s.data []) = .ok r :=
  lookup_bind_eq_ok

@[simp] theorem lockWallet_bind_eq_ok {f : WalletRow → OpTx β} :
    (lockWallet id >>= f) s = .ok r ↔ s.nextFault = none ∧
      ∃ t, s.data.wallet.find? id = some t ∧ f t (s.wrote s.data []) = .ok r :=
  lookup_bind_eq_ok

@[simp] theorem lockWalletEscrow_bind_eq_ok {f : WalletEscrowRow → OpTx β} :
    (lockWalletEscrow id >>= f) s = .ok r ↔ s.nextFault = none ∧
      ∃ t, s.data.walletEscrow.find? id = some t ∧ f t (s.wrote s.data []) = .ok r :=
  lookup_bind_eq_ok

@[simp] theorem checkedAdd_bind_eq_ok {m n : Int} {label : String} :
    (checkedAdd m n label >>= f) s = .ok r ↔ InI64 (m + n) ∧ f (m + n) s = .ok r := by
  rw [Tx.bind_eq_ok]
  simp only [checkedAdd, Tx.ensure_bind_eq_ok, Tx.pure_eq_ok, Prod.mk.injEq]
  constructor
  · rintro ⟨_, _, ⟨hi, rfl, rfl⟩, hf⟩
    exact ⟨hi, hf⟩
  · rintro ⟨hi, hf⟩
    exact ⟨_, _, ⟨hi, rfl, rfl⟩, hf⟩

@[simp] theorem checkedSub_bind_eq_ok {m n : Int} {label : String} :
    (checkedSub m n label >>= f) s = .ok r ↔ InI64 (m - n) ∧ f (m - n) s = .ok r := by
  rw [Tx.bind_eq_ok]
  simp only [checkedSub, Tx.ensure_bind_eq_ok, Tx.pure_eq_ok, Prod.mk.injEq]
  constructor
  · rintro ⟨_, _, ⟨hi, rfl, rfl⟩, hf⟩
    exact ⟨hi, hf⟩
  · rintro ⟨hi, hf⟩
    exact ⟨_, _, ⟨hi, rfl, rfl⟩, hf⟩

end Statements

section Postings

variable {st : StackState} {stack : ItemStackRow} {w : WalletRow} {kind : EntryKind}

theorem insertItemStackLedgerEvent_eq_ok {p : ItemStackLedgerPayload}
    (h : insertItemStackLedgerEvent ext p b = .ok (b', checks)) :
    ∃ l, LedgerEntry ext b.itemStackLedger p l ∧
      b' = { b with itemStackLedger := b.itemStackLedger ++ [l] } ∧
      checks = [.itemStackLedgerProjection p.itemStackId] := by
  simp only [insertItemStackLedgerEvent, except_bind_eq_ok] at h
  obtain ⟨_, hext, h⟩ := h
  split_ifs at h with hq hv hs hp
  simp only [except_bind_eq_ok, check_eq_ok, pure, Except.pure, Except.ok.injEq,
    Prod.mk.injEq] at h
  obtain ⟨_, hseq, _, hhash, _, _, _, _, _, _, _, _, hb, hc⟩ := h
  exact ⟨_, ⟨rfl, hext, rfl, rfl, rfl, hseq, hhash⟩, hb.symm, hc.symm⟩

theorem updateItemStackRow_eq_ok {id : Uuid} {q v : Int} {c a : String}
    (found : b.itemStack.find? id = some stack)
    (h : updateItemStackRow id q st v c a b = .ok (b', checks)) :
    ∃ hq : 0 ≤ q, b' = { b with itemStack := b.itemStack.set (stack.posted q st v c a hq) } ∧
      checks = [.itemStackLedgerProjection id] := by
  simp only [updateItemStackRow, found] at h
  split_ifs at h with hq
  simp only [Except.ok.injEq, Prod.mk.injEq] at h
  exact ⟨hq, h.1.symm, h.2.symm⟩

theorem updateWalletRow_eq_ok {id : Uuid} {q v : Int} {c a : String}
    (found : b.wallet.find? id = some w)
    (h : updateWalletRow id q v c a b = .ok (b', checks)) :
    ∃ hq : 0 ≤ q, b' = { b with wallet := b.wallet.set (w.posted q v c a hq) } ∧ checks = [] := by
  simp only [updateWalletRow, found] at h
  split_ifs at h with hq
  simp only [Except.ok.injEq, Prod.mk.injEq] at h
  exact ⟨hq, h.1.symm, h.2.symm⟩

theorem updateItemStack_eq_ok {after : Int}
    {v : Int × String} (found : s.data.itemStack.find? stack.itemStackId = some stack)
    (h : updateItemStack ext stack after st s = .ok (v, s')) :
    StackChecksumValid ext stack ∧
      v = (stack.stackVersion + 1,
        itemStackChecksum ext stack.itemStackId after (stack.stackVersion + 1)) ∧
      ∃ hq : 0 ≤ after,
        s'.data = { s.data with
          itemStack := s.data.itemStack.set (postedStack ext stack after st hq) } ∧
        s'.deferred = s.deferred ++ [.itemStackLedgerProjection stack.itemStackId] := by
  unfold updateItemStack at h
  rw [Tx.unit_bind_eq_ok] at h
  obtain ⟨s₁, hvalid, h⟩ := h
  simp only [ensureItemStackChecksumValid, Tx.ensure_bind_eq_ok, Tx.ensure_eq_ok, Prod.mk.injEq,
    true_and] at hvalid
  obtain ⟨halg, hsum, rfl⟩ := hvalid
  simp only [checkedAdd_bind_eq_ok, execute_bind_eq_ok, Tx.pure_eq_ok, Prod.mk.injEq] at h
  obtain ⟨_, _, b, checks, hrun, rfl, rfl⟩ := h
  obtain ⟨hq, rfl, rfl⟩ := updateItemStackRow_eq_ok found hrun
  exact ⟨⟨halg, hsum⟩, rfl, hq, rfl, rfl⟩

theorem updateWallet_eq_ok {after : Int} {v : Int × String}
    (found : s.data.wallet.find? w.walletId = some w)
    (h : updateWallet ext w after s = .ok (v, s')) :
    WalletChecksumValid ext w ∧
      v = (w.walletVersion + 1, walletChecksum ext w.walletId after (w.walletVersion + 1)) ∧
      ∃ hq : 0 ≤ after,
        s'.data = { s.data with wallet := s.data.wallet.set (postedWallet ext w after hq) } ∧
        s'.deferred = s.deferred := by
  unfold updateWallet at h
  rw [Tx.unit_bind_eq_ok] at h
  obtain ⟨s₁, hvalid, h⟩ := h
  simp only [ensureWalletChecksumValid, Tx.ensure_bind_eq_ok, Tx.ensure_eq_ok, Prod.mk.injEq,
    true_and] at hvalid
  obtain ⟨halg, hsum, rfl⟩ := hvalid
  simp only [checkedAdd_bind_eq_ok, execute_bind_eq_ok, Tx.pure_eq_ok, Prod.mk.injEq] at h
  obtain ⟨_, _, b, checks, hrun, rfl, rfl⟩ := h
  obtain ⟨hq, rfl, rfl⟩ := updateWalletRow_eq_ok found hrun
  exact ⟨⟨halg, hsum⟩, rfl, hq, rfl, List.append_nil _⟩

theorem stack_posting {f : OpTx β} {delta after : Int}
    (h : (updateItemStack ext stack after st >>= fun v => do
      insertItemStackLedger ext ctx.settlementStepId stack kind delta after st v.1 v.2
      f) s = .ok r) (hafter : after = stack.quantity + delta)
    (found : s.data.itemStack.find? stack.itemStackId = some stack) :
    ∃ s₁ checks, StackPosting ext ctx stack kind delta st s.data s₁.data checks ∧
      s₁.deferred = s.deferred ++ checks ∧ f s₁ = .ok r := by
  subst hafter
  rw [Tx.bind_eq_ok] at h
  obtain ⟨v, s₁, hupdate, h⟩ := h
  obtain ⟨hvalid, rfl, hq, hdata, hdeferred⟩ := updateItemStack_eq_ok found hupdate
  simp only [insertItemStackLedger, execute_bind_eq_ok] at h
  obtain ⟨_, b, checks, hrun, hf⟩ := h
  obtain ⟨l, hentry, rfl, rfl⟩ := insertItemStackLedgerEvent_eq_ok hrun
  obtain ⟨d₁, f₁, fs₁⟩ := s₁
  obtain rfl : d₁ = _ := hdata
  obtain rfl : f₁ = _ := hdeferred
  exact ⟨_, _, .posted found hvalid hq l hentry, List.append_assoc _ _ _, hf⟩

theorem insertWalletLedgerRow_eq_ok {stepId : Uuid} {delta : Int} {c : String}
    (h : insertWalletLedgerRow stepId w kind delta (w.iskAmount + delta) (w.walletVersion + 1) c b =
      .ok (b', checks)) :
    b' = { b with walletLedger := b.walletLedger ++
      [⟨stepId, w.walletId, w.capsuleerId, kind, delta, w.iskAmount, w.iskAmount + delta,
        w.walletVersion, w.walletVersion + 1, w.walletChecksum, c, rfl, rfl⟩] } ∧ checks = [] := by
  simp only [insertWalletLedgerRow, dite_true, except_bind_eq_ok, check_eq_ok, pure, Except.pure,
    Except.ok.injEq, Prod.mk.injEq] at h
  obtain ⟨_, _, _, _, hb, hc⟩ := h
  exact ⟨hb.symm, hc.symm⟩

theorem wallet_posting {f : OpTx β} {delta after : Int}
    (h : (updateWallet ext w after >>= fun v => do
      insertWalletLedger ctx.settlementStepId w kind delta after v.1 v.2
      f) s = .ok r) (hafter : after = w.iskAmount + delta)
    (found : s.data.wallet.find? w.walletId = some w) :
    ∃ s₁, WalletPosting ext ctx w kind delta s.data s₁.data ∧
      s₁.deferred = s.deferred ∧ f s₁ = .ok r := by
  subst hafter
  rw [Tx.bind_eq_ok] at h
  obtain ⟨v, s₁, hupdate, h⟩ := h
  obtain ⟨hvalid, rfl, hq, hdata, hdeferred⟩ := updateWallet_eq_ok found hupdate
  simp only [insertWalletLedger, execute_bind_eq_ok] at h
  obtain ⟨_, b, checks, hrun, hf⟩ := h
  obtain ⟨rfl, rfl⟩ := insertWalletLedgerRow_eq_ok hrun
  obtain ⟨d₁, f₁, fs₁⟩ := s₁
  obtain rfl : d₁ = _ := hdata
  obtain rfl : f₁ = _ := hdeferred
  exact ⟨_, .posted found hvalid hq, List.append_nil _, hf⟩

end Postings

section Specs

variable {out : OperationOutput} {id : Uuid} {p : TransferQuantityFromItemStackToItemStackEscrow}
  {rule : EscrowOwnerRule} {clock : DateTime}

theorem key_of_find {R K : Type} [Keyed R K] [DecidableEq K] {t : Table R} {k : K} {r : R}
    (h : t.find? k = some r) : t.find? (Keyed.key r) = some r := by
  rw [Table.find?_some_key h, h]

theorem createNewTradeInstanceRow_effect {p : CreateNewTradeInstanceRow}
    (h : createNewTradeInstanceRow ctx p s = .ok (out, s')) :
    ∃ checks, TradeCreation ctx p s.data s'.data checks ∧ s'.deferred = s.deferred ++ checks := by
  simp only [createNewTradeInstanceRow, ensurePositive, ensureTradeKind, ensureNewTradeState,
    ensureFutureExpiration, Tx.ensure_bind_eq_ok, execute_bind_eq_ok, Tx.pure_eq_ok,
    Prod.mk.injEq] at h
  obtain ⟨ht, hp, _, hstate, hfuture, _, b, checks, hrun, _, rfl⟩ := h
  simp only [insertTradeInstance, except_bind_eq_ok, check_eq_ok, hstate, TradeState.ofText?,
    if_true, dif_pos ht, dif_pos hp, insertRow_eq_ok, pure, Except.pure, Except.ok.injEq,
    Prod.mk.injEq] at hrun
  obtain ⟨_, _, trades, hins, _, hissuer, _, htype, _, hstation, rfl, rfl⟩ := hrun
  exact ⟨_, .created ht hp hfuture trades hins hissuer htype hstation, rfl⟩

theorem completionGuards_eq_ok {t : TradeInstanceRow} (h : (do
      ensureTradeNotExpired ext ctx.clock t
      ensureNoRemainingItemEscrow id
      ensureNoActiveWalletEscrow id) s = .ok ((), s')) :
    isExpired ctx.clock t = false ∧ s.data.activeItemEscrowQuantity id ≤ 0 ∧
      s.data.activeWalletEscrowIsk id ≤ 0 ∧ s'.data = s.data ∧ s'.deferred = s.deferred := by
  simp only [ensureTradeNotExpired, Tx.ensure_bind_eq_ok] at h
  obtain ⟨hexp, h⟩ := h
  rw [Tx.unit_bind_eq_ok] at h
  obtain ⟨s₁, hitems, hwallets⟩ := h
  simp only [ensureNoRemainingItemEscrow, selectSum_bind_eq_ok, Tx.ensure_eq_ok, Prod.mk.injEq,
    true_and, not_lt] at hitems
  obtain ⟨_, _, hitem, rfl⟩ := hitems
  simp only [ensureNoActiveWalletEscrow, selectSum_bind_eq_ok, Tx.ensure_eq_ok, Prod.mk.injEq,
    true_and, not_lt, Session.wrote_data] at hwallets
  obtain ⟨_, _, hwallet, rfl⟩ := hwallets
  exact ⟨hexp, hitem, hwallet, rfl, by simp⟩

theorem stateWrites_eq_ok {p : ModifyTradeInstanceState} {t : TradeInstanceRow} {f : OpTx β}
    (h : (do
      execute (updateTradeState p.tradeInstanceId p.toTradeState)
      execute (insertTradeStateChange ctx.settlementStepId p.tradeInstanceId t.tradeState
        p.toTradeState p.tradeStateChangeKind p.changedByService)
      f) s = .ok r) (ht : s.data.tradeInstance.find? p.tradeInstanceId = some t) :
    ∃ state kind s₁, TradeState.ofText? p.toTradeState = some state ∧
      TradeStateChangeKind.ofText? p.tradeStateChangeKind = some kind ∧
      s₁.data = { s.data with
        tradeInstance := s.data.tradeInstance.set (t.withState state)
        tradeStateChange := s.data.tradeStateChange ++
          [⟨ctx.settlementStepId, p.tradeInstanceId, t.tradeState, state, kind,
            p.changedByService⟩] } ∧
      s₁.deferred = s.deferred ++ tradeChecks p.tradeInstanceId ∧ f s₁ = .ok r := by
  simp only [execute_bind_eq_ok] at h
  obtain ⟨_, b, checks, hrun, _, b₂, checks₂, hrun₂, hf⟩ := h
  simp only [updateTradeState, ht] at hrun
  cases hstate : TradeState.ofText? p.toTradeState with
  | none =>
    rw [hstate] at hrun
    cases hrun
  | some state =>
    simp only [hstate, Except.ok.injEq, Prod.mk.injEq] at hrun
    obtain ⟨rfl, rfl⟩ := hrun
    simp only [insertTradeStateChange, hstate] at hrun₂
    cases hkind : TradeStateChangeKind.ofText? p.tradeStateChangeKind with
    | none =>
      rw [hkind] at hrun₂
      cases hrun₂
    | some kind =>
      simp only [hkind, except_bind_eq_ok, check_eq_ok, pure, Except.pure, Except.ok.injEq,
        Prod.mk.injEq] at hrun₂
      obtain ⟨_, _, rfl, rfl⟩ := hrun₂
      exact ⟨state, kind, _, rfl, rfl, rfl, by simp, hf⟩

theorem modifyTradeInstanceState_effect {p : ModifyTradeInstanceState}
    (h : modifyTradeInstanceState ext ctx p s = .ok (out, s')) :
    ∃ checks, StateChange ctx p s.data s'.data checks ∧ s'.deferred = s.deferred ++ checks := by
  simp only [modifyTradeInstanceState, ensureTradeState, ensureTradeStateChangeKind,
    ensureTradeTransition, lockTradeInstance_bind_eq_ok, Tx.ensure_bind_eq_ok,
    Tx.when_bind_eq_ok] at h
  obtain ⟨_, _, _, t, ht, ⟨hopen, htarget⟩, h⟩ := h
  have hcloses : ∀ state, TradeState.ofText? p.toTradeState = some state → state ≠ .open := by
    intro state hstate
    rcases htarget with hto | hto <;> rw [hto] at hstate <;> cases hstate <;> decide
  rcases h with ⟨_, s₁, hguards, h⟩ | ⟨hnot, h⟩
  · obtain ⟨hexp, hitem, hwallet, hdata, hdeferred⟩ := completionGuards_eq_ok hguards
    rw [Session.wrote_data] at hitem hwallet hdata
    obtain ⟨state, kind, s₂, hstate, hkind, hdata₂, hdeferred₂, h⟩ :=
      stateWrites_eq_ok h (hdata ▸ ht)
    simp only [Tx.pure_eq_ok, Prod.mk.injEq] at h
    obtain ⟨_, rfl⟩ := h
    rw [hdata, hopen] at hdata₂
    refine ⟨tradeChecks p.tradeInstanceId, ?_, by simp [hdeferred₂, hdeferred]⟩
    rw [hdata₂]
    exact .changed t ht hopen state hstate (hcloses state hstate) kind hkind
      fun _ => ⟨hexp, hitem, hwallet⟩
  · obtain ⟨state, kind, s₂, hstate, hkind, hdata₂, hdeferred₂, h⟩ :=
      stateWrites_eq_ok h ht
    simp only [Tx.pure_eq_ok, Prod.mk.injEq] at h
    obtain ⟨_, rfl⟩ := h
    rw [Session.wrote_data, hopen] at hdata₂
    refine ⟨tradeChecks p.tradeInstanceId, ?_, by simp [hdeferred₂]⟩
    rw [hdata₂]
    refine .changed t ht hopen state hstate (hcloses state hstate) kind hkind fun hc => ?_
    rcases htarget with hto | hto
    · rw [hto] at hstate
      cases hstate
      cases hc
    · exact absurd hto hnot

theorem createNewEmptyItemStack_effect {p : CreateNewEmptyItemStack}
    (h : createNewEmptyItemStack ext ctx p s = .ok (out, s')) :
    ∃ checks, StackCreation ext ctx p s.data s'.data checks ∧
      s'.deferred = s.deferred ++ checks := by
  simp only [createNewEmptyItemStack, execute_bind_eq_ok, Tx.pure_eq_ok, Prod.mk.injEq] at h
  obtain ⟨_, b, checks, hrun, _, b₂, checks₂, hrun₂, _, rfl⟩ := h
  simp only [insertItemStack, except_bind_eq_ok, check_eq_ok, insertRow_eq_ok, pure, Except.pure,
    Except.ok.injEq, Prod.mk.injEq] at hrun
  obtain ⟨rows, hins, _, howner, _, _, _, _, rfl, rfl⟩ := hrun
  obtain ⟨l, hentry, rfl, rfl⟩ := insertItemStackLedgerEvent_eq_ok hrun₂
  exact ⟨_, .created _ rfl rows hins howner l hentry, List.append_assoc _ _ _⟩

theorem createNewEmptyWalletEscrow_effect {p : CreateNewEmptyWalletEscrow}
    (h : createNewEmptyWalletEscrow ctx p s = .ok (out, s')) :
    ∃ checks, WalletEscrowCreation ctx p s.data s'.data checks ∧
      s'.deferred = s.deferred ++ checks := by
  simp only [createNewEmptyWalletEscrow, ensureWalletActive, lockWallet_bind_eq_ok,
    Tx.ensure_bind_eq_ok, execute_bind_eq_ok, Tx.pure_eq_ok, Prod.mk.injEq] at h
  obtain ⟨_, w, hw, howner, hactive, _, b, checks, hrun, _, rfl⟩ := h
  simp only [insertWalletEscrow, le_refl, dite_true, except_bind_eq_ok, check_eq_ok,
    insertRow_eq_ok, pure, Except.pure, Except.ok.injEq, Prod.mk.injEq] at hrun
  obtain ⟨escrows, hins, _, htrade, _, _, _, _, rfl, rfl⟩ := hrun
  exact ⟨_, .created w hw howner hactive escrows hins htrade, by simp⟩

theorem fundItemStackEscrow_eq_ok
    {source : ItemStackRow} (hcompat : ∀ e, s.data.itemStackEscrow.find? id = some e →
      e.isReleased = false ∧ e.tradeInstanceId = p.tradeInstanceId ∧ e.ownerId = source.ownerId ∧
        e.itemTypeId = source.itemTypeId ∧ e.stationId = source.stationId)
    (h : fundItemStackEscrow ctx p source id (s.data.itemStackEscrow.find? id) s = .ok ((), s')) :
    ∃ checks, ItemEscrowFunding ctx p source id s.data s'.data checks ∧
      s'.deferred = s.deferred ++ checks := by
  cases hfind : s.data.itemStackEscrow.find? id with
  | some e =>
    obtain ⟨hrel, htrade, howner, htype, hstation⟩ := hcompat e hfind
    simp only [hfind, fundItemStackEscrow, checkedAdd_bind_eq_ok, execute_eq_ok] at h
    obtain ⟨_, _, b, checks, hrun, rfl⟩ := h
    simp only [updateItemStackEscrowQuantity, hfind] at hrun
    split_ifs at hrun with hq
    simp only [Except.ok.injEq, Prod.mk.injEq] at hrun
    obtain ⟨rfl, rfl⟩ := hrun
    exact ⟨_, .toppedUp e hfind hrel htrade howner htype hstation hq, rfl⟩
  | none =>
    simp only [hfind, fundItemStackEscrow, execute_eq_ok] at h
    obtain ⟨_, b, checks, hrun, rfl⟩ := h
    unfold insertItemStackEscrow at hrun
    split_ifs at hrun with hq
    simp only [except_bind_eq_ok, check_eq_ok, insertRow_eq_ok, pure, Except.pure,
      Except.ok.injEq, Prod.mk.injEq] at hrun
    obtain ⟨escrows, hins, _, hsole, _, _, _, _, _, _, _, _, _, _, rfl, rfl⟩ := hrun
    exact ⟨_, .opened hfind hq escrows hins hsole, rfl⟩

theorem ensureItemStackEscrowCompatible_eq_ok
    {source : ItemStackRow} {existing : Option ItemStackEscrowRow}
    (h : ensureItemStackEscrowCompatible p source existing s = .ok ((), s')) :
    s' = s ∧ ∀ e, existing = some e →
      e.isReleased = false ∧ e.tradeInstanceId = p.tradeInstanceId ∧ e.ownerId = source.ownerId ∧
        e.itemTypeId = source.itemTypeId ∧ e.stationId = source.stationId := by
  cases existing with
  | none =>
    simp only [ensureItemStackEscrowCompatible, Tx.pure_eq_ok, Prod.mk.injEq, true_and] at h
    exact ⟨h, fun e he => by cases he⟩
  | some e =>
    simp only [ensureItemStackEscrowCompatible, ensureEscrowNotReleased, Tx.ensure_bind_eq_ok,
      Tx.ensure_eq_ok, Prod.mk.injEq, true_and, not_or, not_not, ne_eq] at h
    obtain ⟨hrel, ⟨htrade, howner, _, htype, hstation⟩, hs⟩ := h
    refine ⟨hs, fun e' he => ?_⟩
    cases he
    exact ⟨hrel, htrade, howner, htype, hstation⟩

theorem transferQuantityFromItemStackToItemStackEscrow_effect
    (h : transferQuantityFromItemStackToItemStackEscrow ext ctx p s = .ok (out, s')) :
    ∃ checks, ItemDeposit ext ctx p s.data s'.data checks ∧
      s'.deferred = s.deferred ++ checks := by
  simp only [transferQuantityFromItemStackToItemStackEscrow, ensurePositive, ensureTradeOpen,
    ensureTradeNotExpired, ensureItemStackActive, lockItemStackEscrowOptional,
    lockTradeInstance_bind_eq_ok, lockItemStack_bind_eq_ok, select_bind_eq_ok,
    Tx.ensure_bind_eq_ok, Session.wrote_data, not_lt] at h
  obtain ⟨hq, _, t, ht, hopen, hexp, _, source, hs, hactive, hissuer, henough, _, h⟩ := h
  rw [Tx.unit_bind_eq_ok] at h
  obtain ⟨s₁, hensure, h⟩ := h
  obtain ⟨rfl, hcompat⟩ := ensureItemStackEscrowCompatible_eq_ok hensure
  rw [checkedSub_bind_eq_ok] at h
  obtain ⟨_, h⟩ := h
  obtain ⟨s₂, c₁, hposting, hdeferred, h⟩ :=
    stack_posting h (sub_eq_add_neg source.quantity p.quantity) (key_of_find hs)
  rw [Tx.unit_bind_eq_ok] at h
  obtain ⟨s₃, hfund, h⟩ := h
  simp only [Tx.pure_eq_ok, Prod.mk.injEq] at h
  obtain ⟨_, rfl⟩ := h
  have hescrows : s₂.data.itemStackEscrow = s.data.itemStackEscrow := hposting.itemStackEscrow
  rw [← hescrows] at hfund hcompat
  obtain ⟨c₂, hfunding, hdeferred₂⟩ := fundItemStackEscrow_eq_ok hcompat hfund
  refine ⟨c₁ ++ c₂, .deposited t source _ _ c₁ c₂ hq ht hopen hexp (Table.find?_some_key hs)
    hactive hissuer henough hposting hfunding, ?_⟩
  simp [hdeferred₂, hdeferred]

theorem validateOwnerRule_eq_ok {m n : Int} {name : String}
    (h : validateOwnerRule rule m n name s = .ok ((), s')) :
    OwnerRuleHolds rule m n ∧ s' = s := by
  cases rule with
  | newOwner =>
    simp only [validateOwnerRule, Tx.ensure_eq_ok, Prod.mk.injEq, true_and] at h
    exact ⟨⟨fun hr => EscrowOwnerRule.noConfusion hr, fun he => absurd he h.1⟩, h.2⟩
  | previousOwner =>
    simp only [validateOwnerRule, Tx.ensure_eq_ok, Prod.mk.injEq, true_and] at h
    exact ⟨⟨fun _ => h.1, fun _ => rfl⟩, h.2⟩

theorem ensureActiveWalletEscrowMatchesItemRelease_eq_ok {q : Int}
    (h : ensureActiveWalletEscrowMatchesItemRelease ext clock id q s = .ok ((), s')) :
    (∃ t, s.data.tradeInstance.find? id = some t ∧ t.tradeState = .open ∧
      isExpired clock t = false ∧ s.data.activeWalletEscrowIsk id = t.unitPriceIsk * q) ∧
      s'.data = s.data ∧ s'.deferred = s.deferred := by
  simp only [ensureActiveWalletEscrowMatchesItemRelease, ensureTradeOpen, ensureTradeNotExpired,
    lockTradeInstance_bind_eq_ok, selectSum_bind_eq_ok, Tx.ensure_bind_eq_ok, Tx.ensure_eq_ok,
    Prod.mk.injEq, true_and] at h
  obtain ⟨_, t, ht, hopen, hexp, _, _, _, hpaid, rfl⟩ := h
  exact ⟨⟨t, ht, hopen, hexp, hpaid⟩, rfl, by simp⟩

theorem ensureTradeLiveForNewOwnerRelease_eq_ok
    (h : ensureTradeLiveForNewOwnerRelease ext clock id s = .ok ((), s')) :
    (∃ t, s.data.tradeInstance.find? id = some t ∧ t.tradeState = .open ∧
      isExpired clock t = false) ∧ s'.data = s.data ∧ s'.deferred = s.deferred := by
  simp only [ensureTradeLiveForNewOwnerRelease, ensureTradeOpen, ensureTradeNotExpired,
    lockTradeInstance_bind_eq_ok, Tx.ensure_bind_eq_ok, Tx.ensure_eq_ok, Prod.mk.injEq,
    true_and] at h
  obtain ⟨_, t, ht, hopen, hexp, rfl⟩ := h
  exact ⟨⟨t, ht, hopen, hexp⟩, rfl, by simp⟩

theorem releaseOrUpdateItemStackEscrow_eq_ok {e : ItemStackEscrowRow} {after : Int}
    (found : s.data.itemStackEscrow.find? e.itemStackEscrowId = some e)
    (h : releaseOrUpdateItemStackEscrow e.itemStackEscrowId after ctx.settlementStepId s =
      .ok ((), s')) (hq : 0 ≤ after) :
    s'.data = { s.data with
      itemStackEscrow := s.data.itemStackEscrow.set (drawnItemEscrow ctx e after hq) } ∧
      s'.deferred = s.deferred ++ [.tradeRemainingQuantity e.tradeInstanceId] := by
  unfold releaseOrUpdateItemStackEscrow at h
  split_ifs at h with hz
  · simp only [execute_eq_ok, releaseItemStackEscrow, found, Except.ok.injEq, Prod.mk.injEq] at h
    obtain ⟨_, b, checks, ⟨rfl, rfl⟩, rfl⟩ := h
    exact ⟨by simp [drawnItemEscrow, hz], rfl⟩
  · simp only [execute_eq_ok, updateItemStackEscrowQuantity, found, dif_pos hq, Except.ok.injEq,
      Prod.mk.injEq] at h
    obtain ⟨_, b, checks, ⟨rfl, rfl⟩, rfl⟩ := h
    exact ⟨by simp [drawnItemEscrow, hz], rfl⟩

theorem releaseOrUpdateWalletEscrow_eq_ok {e : WalletEscrowRow} {after : Int}
    (found : s.data.walletEscrow.find? e.walletEscrowId = some e)
    (h : releaseOrUpdateWalletEscrow e.walletEscrowId after ctx.settlementStepId s = .ok ((), s'))
    (hq : 0 ≤ after) :
    s'.data = { s.data with
      walletEscrow := s.data.walletEscrow.set (drawnWalletEscrow ctx e after hq) } ∧
      s'.deferred = s.deferred ++ [.tradeWalletEscrowClosedState e.tradeInstanceId] := by
  unfold releaseOrUpdateWalletEscrow at h
  split_ifs at h with hz
  · simp only [execute_eq_ok, releaseWalletEscrow, found, Except.ok.injEq, Prod.mk.injEq] at h
    obtain ⟨_, b, checks, ⟨rfl, rfl⟩, rfl⟩ := h
    exact ⟨by simp [drawnWalletEscrow, hz], rfl⟩
  · simp only [execute_eq_ok, updateWalletEscrowAmount, found, dif_pos hq, Except.ok.injEq,
      Prod.mk.injEq] at h
    obtain ⟨_, b, checks, ⟨rfl, rfl⟩, rfl⟩ := h
    exact ⟨by simp [drawnWalletEscrow, hz], rfl⟩

theorem updateTradeRemainingQuantity_eq_ok {before after : Int}
    (h : updateTradeRemainingQuantity id before after s = .ok ((), s')) :
    ∃ t, ∃ hr : 0 ≤ after ∧ after ≤ t.totalQuantity,
      s.data.tradeInstance.find? id = some t ∧ t.remainingQuantity = before ∧
      s'.data = { s.data with
        tradeInstance := s.data.tradeInstance.set (t.withRemaining after hr) } ∧
      s'.deferred = s.deferred ++ tradeChecks id := by
  unfold updateTradeRemainingQuantity at h
  rw [Tx.bind_eq_ok] at h
  obtain ⟨n, s₁, hrun, h⟩ := h
  obtain ⟨_, data, checks, hrun, hs⟩ := Tx.statement_eq_ok.1 hrun
  simp only [Tx.ensure_eq_ok, Prod.mk.injEq, true_and] at h
  obtain ⟨hn, rfl⟩ := h
  cases ht : s.data.tradeInstance.find? id with
  | none =>
    simp only [updateTradeRemaining, ht, Except.ok.injEq, Prod.mk.injEq] at hrun
    omega
  | some t =>
    simp only [updateTradeRemaining, ht] at hrun
    split_ifs at hrun with hb hr
    · simp only [Except.ok.injEq, Prod.mk.injEq] at hrun
      obtain ⟨_, rfl, rfl⟩ := hrun
      obtain rfl : s' = _ := hs
      exact ⟨t, hr, rfl, hb, rfl, rfl⟩
    · simp only [Except.ok.injEq, Prod.mk.injEq] at hrun
      omega

theorem transferQuantityFromItemStackEscrowToItemStack_effect
    {p : TransferQuantityFromItemStackEscrowToItemStack}
    (h : transferQuantityFromItemStackEscrowToItemStack ext ctx p rule s = .ok (out, s')) :
    ∃ checks, ItemRelease ext ctx rule p s.data s'.data checks ∧
      s'.deferred = s.deferred ++ checks := by
  simp only [transferQuantityFromItemStackEscrowToItemStack, ensurePositive,
    ensureEscrowNotReleased, ensureItemStackActive, lockItemStackEscrow_bind_eq_ok,
    lockItemStack_bind_eq_ok, Tx.ensure_bind_eq_ok, Session.wrote_data, not_lt, not_or, not_not,
    ne_eq] at h
  obtain ⟨hq, _, e, he, hrel, henough, _, d, hd, hactive, ⟨htype, hstation⟩, h⟩ := h
  rw [Tx.unit_bind_eq_ok] at h
  obtain ⟨s₁, hrule, h⟩ := h
  obtain ⟨howner, rfl⟩ := validateOwnerRule_eq_ok hrule
  rw [Tx.unit_bind_eq_ok] at h
  obtain ⟨s₂, hwhen, h⟩ := h
  have hpaid : (rule = .newOwner → ∃ t, s.data.tradeInstance.find? e.tradeInstanceId = some t ∧
      t.tradeState = .open ∧ isExpired ctx.clock t = false ∧
      s.data.activeWalletEscrowIsk e.tradeInstanceId = t.unitPriceIsk * p.quantity) ∧
      s₂.data = s.data ∧ s₂.deferred = s.deferred := by
    rcases Tx.when_eq_ok.1 hwhen with ⟨_, hmatch⟩ | ⟨hr, hs⟩
    · obtain ⟨ht, hdata, hdeferred⟩ := ensureActiveWalletEscrowMatchesItemRelease_eq_ok hmatch
      exact ⟨fun _ => ht, hdata, by simpa using hdeferred⟩
    · obtain ⟨_, rfl⟩ := Prod.mk.injEq .. ▸ hs
      exact ⟨fun h => absurd h hr, rfl, by simp⟩
  obtain ⟨hpaid, hdata, hdeferred⟩ := hpaid
  rw [checkedAdd_bind_eq_ok] at h
  obtain ⟨_, h⟩ := h
  rw [← hdata] at hd he hpaid ⊢
  obtain ⟨s₃, c₁, hposting, hdeferred₃, h⟩ := stack_posting h rfl (key_of_find hd)
  rw [checkedSub_bind_eq_ok] at h
  obtain ⟨_, h⟩ := h
  rw [Tx.unit_bind_eq_ok] at h
  obtain ⟨s₄, hrelease, h⟩ := h
  rw [Tx.unit_bind_eq_ok] at h
  obtain ⟨s₅, hremaining, h⟩ := h
  simp only [Tx.pure_eq_ok, Prod.mk.injEq] at h
  obtain ⟨_, rfl⟩ := h
  have hafter : 0 ≤ e.quantity - p.quantity := by omega
  obtain ⟨hdata₄, hdeferred₄⟩ :=
    releaseOrUpdateItemStackEscrow_eq_ok (hposting.itemStackEscrow ▸ key_of_find he) hrelease
      hafter
  obtain ⟨t, hr, ht, hbefore, hdata₅, hdeferred₅⟩ := updateTradeRemainingQuantity_eq_ok hremaining
  rw [hdata₄] at hdata₅ ht
  have ht₂ : s₂.data.tradeInstance.find? e.tradeInstanceId = some t :=
    hposting.tradeInstance ▸ ht
  refine ⟨c₁ ++ (.tradeRemainingQuantity e.tradeInstanceId :: tradeChecks e.tradeInstanceId),
    ?_, ?_⟩
  · rw [hdata₅]
    refine .released e d t s₃.data c₁ hq he hrel hafter (Table.find?_some_key hd) hactive htype
      hstation howner ht₂ ?_ hbefore hr hposting
    intro hnew
    obtain ⟨t', ht', hopen, hexp, hisk⟩ := hpaid hnew
    rw [ht₂, Option.some.injEq] at ht'
    subst ht'
    exact ⟨hopen, hexp, hisk⟩
  · simp [hdeferred₅, hdeferred₄, hdeferred₃, hdeferred]

theorem mergeItemStacks_effect {p : MergeItemStacksWithIdenticalItemTypeAndIdenticalOwner}
    (h : mergeItemStacksWithIdenticalItemTypeAndIdenticalOwner ext ctx p s = .ok (out, s')) :
    ∃ checks, StackMerge ext ctx p s.data s'.data checks ∧ s'.deferred = s.deferred ++ checks := by
  simp only [mergeItemStacksWithIdenticalItemTypeAndIdenticalOwner, ensureItemStackActive,
    lockItemStack_bind_eq_ok, checkedAdd_bind_eq_ok, Tx.ensure_bind_eq_ok, Session.wrote_data,
    not_or, not_not, ne_eq] at h
  obtain ⟨hne, _, source, hs, _, d, hd, hsactive, hdactive, ⟨howner, htype, hstation⟩, _, h⟩ := h
  have hsid : source.itemStackId = p.sourceItemStackId := Table.find?_some_key hs
  have hdid : d.itemStackId = p.destinationItemStackId := Table.find?_some_key hd
  obtain ⟨s₁, c₁, hcredit, hdeferred, h⟩ := stack_posting h rfl (key_of_find hd)
  have hsource : s₁.data.itemStack.find? source.itemStackId = some source := by
    generalize s₁.data = b₁ at hcredit
    cases hcredit
    have hkey : d.itemStackId ≠ source.itemStackId := by
      rw [hdid, hsid]
      exact fun e => hne e.symm
    exact (Table.find?_set_ne hkey).trans (key_of_find hs)
  obtain ⟨s₂, c₂, hdebit, hdeferred₂, h⟩ :=
    stack_posting h (add_neg_cancel source.quantity).symm hsource
  simp only [Tx.pure_eq_ok, Prod.mk.injEq] at h
  obtain ⟨_, rfl⟩ := h
  refine ⟨c₁ ++ c₂, .merged source d _ _ c₁ c₂ hne hsid hdid hsactive hdactive howner htype
    hstation hcredit hdebit, ?_⟩
  simp [hdeferred₂, hdeferred]

theorem ensureWalletPaymentMatchesTradePrice_eq_ok {amount : Int}
    (h : ensureWalletPaymentMatchesTradePrice ext clock id amount s = .ok ((), s')) :
    (∃ t, s.data.tradeInstance.find? id = some t ∧ t.tradeState = .open ∧
      isExpired clock t = false ∧ amount.tmod t.unitPriceIsk = 0 ∧
      amount.tdiv t.unitPriceIsk ≤ t.remainingQuantity) ∧
      s'.data = s.data ∧ s'.deferred = s.deferred := by
  simp only [ensureWalletPaymentMatchesTradePrice, ensureTradeOpen, ensureTradeNotExpired,
    lockTradeInstance_bind_eq_ok, Tx.ensure_bind_eq_ok, Tx.ensure_eq_ok, Prod.mk.injEq,
    true_and, not_or, not_not, ne_eq, not_lt] at h
  obtain ⟨_, t, ht, hopen, hexp, ⟨_, hmod⟩, ⟨_, hbuys⟩, rfl⟩ := h
  exact ⟨⟨t, ht, hopen, hexp, hmod, hbuys⟩, rfl, by simp⟩

theorem fundWalletEscrow_eq_ok {p : TransferIskAmountFromWalletToWalletEscrow} {source : WalletRow}
    (h : fundWalletEscrow ctx p source id (s.data.walletEscrow.find? id) s = .ok ((), s')) :
    ∃ checks, WalletEscrowFunding ctx p source id s.data s'.data checks ∧
      s'.deferred = s.deferred ++ checks := by
  cases hfind : s.data.walletEscrow.find? id with
  | some e =>
    simp only [hfind, fundWalletEscrow, ensureEscrowNotReleased, Tx.ensure_bind_eq_ok, not_or,
      not_not, ne_eq, checkedAdd_bind_eq_ok, execute_eq_ok] at h
    obtain ⟨hrel, ⟨htrade, howner, _⟩, _, _, b, checks, hrun, rfl⟩ := h
    simp only [updateWalletEscrowAmount, hfind] at hrun
    split_ifs at hrun with hq
    simp only [Except.ok.injEq, Prod.mk.injEq] at hrun
    obtain ⟨rfl, rfl⟩ := hrun
    exact ⟨_, .toppedUp e hfind hrel htrade howner hq, rfl⟩
  | none =>
    simp only [hfind, fundWalletEscrow, execute_eq_ok] at h
    obtain ⟨_, b, checks, hrun, rfl⟩ := h
    unfold insertWalletEscrow at hrun
    split_ifs at hrun with hq
    simp only [except_bind_eq_ok, check_eq_ok, insertRow_eq_ok, pure, Except.pure,
      Except.ok.injEq, Prod.mk.injEq] at hrun
    obtain ⟨escrows, hins, _, _, _, _, _, _, rfl, rfl⟩ := hrun
    exact ⟨_, .opened hfind hq escrows hins, rfl⟩

theorem transferIskAmountFromWalletToWalletEscrow_effect
    {p : TransferIskAmountFromWalletToWalletEscrow}
    (h : transferIskAmountFromWalletToWalletEscrow ext ctx p s = .ok (out, s')) :
    ∃ checks, IskDeposit ext ctx p s.data s'.data checks ∧ s'.deferred = s.deferred ++ checks := by
  simp only [transferIskAmountFromWalletToWalletEscrow, ensurePositive, ensureWalletActive,
    lockWallet_bind_eq_ok, Tx.ensure_bind_eq_ok] at h
  obtain ⟨hq, _, source, hs, hactive, h⟩ := h
  rw [Tx.unit_bind_eq_ok] at h
  obtain ⟨s₁, hpay, h⟩ := h
  obtain ⟨⟨t, ht, hopen, hexp, hmod, hbuys⟩, hdata, hdeferred⟩ :=
    ensureWalletPaymentMatchesTradePrice_eq_ok hpay
  simp only [lockWalletEscrowOptional, select_bind_eq_ok, Tx.ensure_bind_eq_ok,
    checkedSub_bind_eq_ok, not_lt] at h
  obtain ⟨henough, _, _, h⟩ := h
  rw [Session.wrote_data] at hdata ht
  rw [← hdata] at hs ht ⊢
  obtain ⟨s₂, hposting, hdeferred₂, h⟩ :=
    wallet_posting h (sub_eq_add_neg source.iskAmount p.iskAmount) (key_of_find hs)
  rw [Tx.unit_bind_eq_ok] at h
  obtain ⟨s₃, hfund, h⟩ := h
  simp only [Tx.pure_eq_ok, Prod.mk.injEq] at h
  obtain ⟨_, rfl⟩ := h
  have hescrows : s₂.data.walletEscrow = s₁.data.walletEscrow := hposting.walletEscrow
  rw [← hescrows] at hfund
  obtain ⟨c₂, hfunding, hdeferred₃⟩ := fundWalletEscrow_eq_ok hfund
  refine ⟨c₂, .deposited source t _ _ c₂ hq (Table.find?_some_key hs) hactive ht hopen hexp hmod
    hbuys henough hposting hfunding, ?_⟩
  simp [hdeferred₃, hdeferred₂, hdeferred]

theorem transferIskAmountFromWalletEscrowToWallet_effect
    {p : TransferIskAmountFromWalletEscrowToWallet}
    (h : transferIskAmountFromWalletEscrowToWallet ext ctx p rule s = .ok (out, s')) :
    ∃ checks, IskRelease ext ctx rule p s.data s'.data checks ∧
      s'.deferred = s.deferred ++ checks := by
  simp only [transferIskAmountFromWalletEscrowToWallet, ensurePositive, ensureEscrowNotReleased,
    ensureWalletActive, lockWalletEscrow_bind_eq_ok, lockWallet_bind_eq_ok, Tx.ensure_bind_eq_ok,
    Session.wrote_data, not_lt] at h
  obtain ⟨hq, _, e, he, hrel, henough, _, d, hd, hactive, h⟩ := h
  rw [Tx.unit_bind_eq_ok] at h
  obtain ⟨s₁, hrule, h⟩ := h
  obtain ⟨howner, rfl⟩ := validateOwnerRule_eq_ok hrule
  rw [Tx.unit_bind_eq_ok] at h
  obtain ⟨s₂, hwhen, h⟩ := h
  have hlive : (rule = .newOwner → ∃ t, s.data.tradeInstance.find? e.tradeInstanceId = some t ∧
      t.tradeState = .open ∧ isExpired ctx.clock t = false) ∧
      s₂.data = s.data ∧ s₂.deferred = s.deferred := by
    rcases Tx.when_eq_ok.1 hwhen with ⟨_, hmatch⟩ | ⟨hr, hs⟩
    · obtain ⟨ht, hdata, hdeferred⟩ := ensureTradeLiveForNewOwnerRelease_eq_ok hmatch
      exact ⟨fun _ => ht, hdata, by simpa using hdeferred⟩
    · obtain ⟨_, rfl⟩ := Prod.mk.injEq .. ▸ hs
      exact ⟨fun h => absurd h hr, rfl, by simp⟩
  obtain ⟨hlive, hdata, hdeferred⟩ := hlive
  rw [checkedAdd_bind_eq_ok] at h
  obtain ⟨_, h⟩ := h
  rw [← hdata] at hd he hlive ⊢
  obtain ⟨s₃, hposting, hdeferred₃, h⟩ := wallet_posting h rfl (key_of_find hd)
  rw [checkedSub_bind_eq_ok] at h
  obtain ⟨_, h⟩ := h
  rw [Tx.unit_bind_eq_ok] at h
  obtain ⟨s₄, hrelease, h⟩ := h
  simp only [Tx.pure_eq_ok, Prod.mk.injEq] at h
  obtain ⟨_, rfl⟩ := h
  have hafter : 0 ≤ e.iskAmount - p.iskAmount := by omega
  obtain ⟨hdata₄, hdeferred₄⟩ :=
    releaseOrUpdateWalletEscrow_eq_ok (hposting.walletEscrow ▸ key_of_find he) hrelease hafter
  refine ⟨[.tradeWalletEscrowClosedState e.tradeInstanceId], ?_, ?_⟩
  · rw [hdata₄]
    exact .released e d s₃.data hq he hrel hafter (Table.find?_some_key hd) hactive howner hlive
      hposting
  · simp [hdeferred₄, hdeferred₃, hdeferred]

/-- A step that succeeds has its operation's effect. -/
theorem executeSettlementCommand_effect {c : SettlementCommand}
    (h : executeSettlementCommand ext ctx c s = .ok (out, s')) :
    ∃ checks, Effect ext ctx c s.data s'.data checks ∧ s'.deferred = s.deferred ++ checks := by
  cases c with
  | createNewTradeInstanceRow p => exact createNewTradeInstanceRow_effect h
  | modifyTradeInstanceState p => exact modifyTradeInstanceState_effect h
  | createNewEmptyItemStack p => exact createNewEmptyItemStack_effect h
  | transferQuantityFromItemStackToItemStackEscrow p =>
    exact transferQuantityFromItemStackToItemStackEscrow_effect h
  | transferQuantityFromItemStackEscrowToItemStackWithNewOwner p =>
    exact transferQuantityFromItemStackEscrowToItemStack_effect h
  | transferQuantityFromItemStackEscrowToItemStackWithPreviousOwner p =>
    exact transferQuantityFromItemStackEscrowToItemStack_effect h
  | mergeItemStacksWithIdenticalItemTypeAndIdenticalOwner p => exact mergeItemStacks_effect h
  | createNewEmptyWalletEscrow p => exact createNewEmptyWalletEscrow_effect h
  | transferIskAmountFromWalletToWalletEscrow p =>
    exact transferIskAmountFromWalletToWalletEscrow_effect h
  | transferIskAmountFromWalletEscrowToWalletWithNewOwner p =>
    exact transferIskAmountFromWalletEscrowToWallet_effect h
  | transferIskAmountFromWalletEscrowToWalletWithPreviousOwner p =>
    exact transferIskAmountFromWalletEscrowToWallet_effect h

end Specs

end EveTrade.SettlementOperationSpecs
