import EveTrade.GatewayWorkers
import Mathlib.Logic.Function.Basic

set_option autoImplicit false

/-!
# The listener of the gateway

`ListenAndServe` reads packets into a bounded queue and workers take them from there. When reading
fails, the queue is closed and the workers empty it; only then does the listener return. The socket
is closed as soon as the context is cancelled, whatever is still in the queue.
-/
namespace EveTrade.GatewayListener

open SettlementTypes ValidationRules GatewayPackets GatewayReplay GatewayResponses GatewayWorkers

structure UdpPacketJob where
  remote : String
  packet : ByteArray
deriving DecidableEq

structure ListenerConfig where
  maxPacket : Int
  workers : Int
  queueDepth : Int

def ListenerConfig.violations (c : ListenerConfig) : List FieldText.Violation :=
  positiveInt64.check "max_packet_bytes" c.maxPacket ++
  positiveInt64.check "worker_count" c.workers ++
  positiveInt64.check "queue_depth" c.queueDepth

/-- Where a worker stands with the packet it has taken. Packets are numbered as they are admitted. -/
inductive Worker where
  | idle
  | handling (job : ℕ)
  | calling (job : ℕ) (call : Call)
  | writing (job : ℕ) (body : ByteArray)
  | done

def Worker.job : Worker → Option ℕ
  | .idle => none
  | .handling job => some job
  | .calling job _ => some job
  | .writing job _ => some job
  | .done => none

def Worker.left : Worker → Bool
  | .done => true
  | _ => false

/-- How a packet ended: dropped by the source limiter, answered, or not answered because of an
error. -/
inductive Outcome where
  | limited
  | sent (datagram : ByteArray)
  | unsent (error : String)
deriving DecidableEq

def Outcome.answered : Outcome → Bool
  | .sent _ => true
  | _ => false

/-- Between the reading of a packet and its admission the socket may be closed. -/
inductive Phase where
  | reading
  | admitting (job : UdpPacketJob)
  | draining
  | returned
deriving DecidableEq

structure Listener where
  config : ListenerConfig
  cancelled : Bool
  socketOpen : Bool
  phase : Phase
  cache : InteractionReplayCache
  admitted : List UdpPacketJob
  queue : List ℕ
  workers : ℕ → Worker
  taken : List (ℕ × ℕ)
  finished : List (ℕ × Outcome)
  refused : List (String × ByteArray)

inductive Event where
  | cancel
  | closeSocket
  | read (job : UdpPacketJob)
  | enqueue
  | readError
  | take (w : ℕ)
  | handle (w : ℕ) (now : Int) (sourceAllowed principalAllowed : Bool)
  | reply (w : ℕ) (now : Int) (answer : MarketAnswer)
  | write (w : ℕ)
  | leave (w : ℕ)
  | finish

def listen (config : ListenerConfig) (cache : InteractionReplayCache) : Option Listener :=
  if config.violations = [] then
    some {
      config, cache
      cancelled := false
      socketOpen := true
      phase := .reading
      admitted := []
      queue := []
      workers := fun _ => .idle
      taken := []
      finished := []
      refused := [] }
  else none

section Steps

variable (codec : Codec) (timeText : DateTime → Option String)
  (marshalEnvelope : EdgeEnvelope → ByteArray) (server : QuilkinUdpServer)

namespace Listener

def goto (s : Listener) (w : ℕ) (worker : Worker) : Listener :=
  { s with workers := Function.update s.workers w worker }

/-- The end of a packet: its worker goes on to the next one. -/
def conclude (s : Listener) (w job : ℕ) (outcome : Outcome) : Listener :=
  { s with finished := (job, outcome) :: s.finished }.goto w .idle

/-- What becomes of a body that is to be sent now. -/
def respond (s : Listener) (body : ByteArray) : Outcome :=
  match writeResponse codec marshalEnvelope server body with
  | .error error => .unsent error
  | .ok datagram =>
    if s.socketOpen then .sent datagram else .unsent "use of closed network connection"

/-- The error that the listener writes itself for a packet it does not enqueue. -/
def refuse (s : Listener) (job : UdpPacketJob) (code message : String) : Listener :=
  let body := errorBody (bestEffortInteractionId codec job.packet) code ⟨message, 0⟩
  match s.respond codec marshalEnvelope server body with
  | .sent datagram => { s with refused := (job.remote, datagram) :: s.refused }
  | _ => s

def enqueue (s : Listener) (job : UdpPacketJob) : Listener :=
  if s.config.maxPacket < job.packet.size then
    s.refuse codec marshalEnvelope server job "packet_too_large" "packet too large"
  else if s.queue.length < s.config.queueDepth then
    { s with admitted := s.admitted ++ [job], queue := s.queue ++ [s.admitted.length] }
  else s.refuse codec marshalEnvelope server job "queue_full" "temporarily overloaded"

/-- `handlePacket` up to the call of the market, or up to the response if there is no call. -/
def handle (s : Listener) (w job : ℕ) (packet : ByteArray) (now : Int)
    (sourceAllowed principalAllowed : Bool) : Listener :=
  let handled := Gateway.packet codec server ⟨s.cache, [], [], []⟩ now sourceAllowed
    principalAllowed packet
  match handled.1 with
  | .dropped => s.conclude w job .limited
  | .answered body => { s with cache := handled.2.cache }.goto w (.writing job body)
  | .called request => { s with cache := handled.2.cache }.goto w (.calling job ⟨request, now⟩)

/-- `handlePacket` from the return of the call up to the response. -/
def reply (s : Listener) (w job : ℕ) (call : Call) (now : Int) (answer : MarketAnswer) : Listener :=
  let id := call.request.interactionId
  let conclusion := GatewayResponses.conclude id (forwardToMarket timeText id answer)
  let gateway := Gateway.finish codec ⟨s.cache, [], [], []⟩ now call conclusion
  { s with cache := gateway.cache }.goto w (.writing job conclusion.body)

/-- None where the step cannot be taken. -/
def step (s : Listener) : Event → Option Listener
  | .cancel => some { s with cancelled := true }
  | .closeSocket => if s.cancelled then some { s with socketOpen := false } else none
  | .read job =>
    if s.phase = .reading ∧ s.socketOpen then some { s with phase := .admitting job } else none
  | .enqueue =>
    match s.phase with
    | .admitting job => some ({ s with phase := .reading }.enqueue codec marshalEnvelope server job)
    | _ => none
  | .readError => if s.phase = .reading then some { s with phase := .draining } else none
  | .take w =>
    if (w : Int) < s.config.workers then
      match s.workers w, s.queue with
      | .idle, job :: queue =>
        some ({ s with queue := queue, taken := (w, job) :: s.taken }.goto w (.handling job))
      | _, _ => none
    else none
  | .handle w now sourceAllowed principalAllowed =>
    match s.workers w with
    | .handling job =>
      (s.admitted[job]?).map fun admitted =>
        s.handle codec server w job admitted.packet now sourceAllowed principalAllowed
    | _ => none
  | .reply w now answer =>
    match s.workers w with
    | .calling job call => some (s.reply codec timeText w job call now answer)
    | _ => none
  | .write w =>
    match s.workers w with
    | .writing job body =>
      some (s.conclude w job (s.respond codec marshalEnvelope server body))
    | _ => none
  | .leave w =>
    if (w : Int) < s.config.workers ∧ s.phase = .draining ∧ s.queue = [] then
      match s.workers w with
      | .idle => some (s.goto w .done)
      | _ => none
    else none
  | .finish =>
    if s.phase = .draining ∧
        ∀ w ∈ List.range s.config.workers.toNat, (s.workers w).left then
      some { s with phase := .returned, socketOpen := false }
    else none

def run (s : Listener) : List Event → Option Listener
  | [] => some s
  | e :: events =>
    (s.step codec timeText marshalEnvelope server e).bind fun s' => s'.run events

end Listener

/-- The worker writes while the socket is open, and its response is one that is sent. -/
def Answers (s : Listener) : Event → Prop
  | .write w => ∀ job body, s.workers w = .writing job body →
    s.socketOpen = true ∧ ∃ datagram, writeResponse codec marshalEnvelope server body = .ok datagram
  | _ => True

def AnswersAll (s : Listener) : List Event → Prop
  | [] => True
  | e :: events => Answers codec marshalEnvelope server s e ∧
    ∀ s', s.step codec timeText marshalEnvelope server e = some s' → AnswersAll s' events

end Steps

/-- The packet was taken by one worker, once, and answered with one datagram, unless the source
limiter dropped it. -/
def AnsweredOnce (s : Listener) (job : ℕ) : Prop :=
  (s.taken.map Prod.snd).count job = 1 ∧
    ((job, Outcome.limited) ∈ s.finished ∨
      (s.finished.countP fun f => f.1 = job ∧ f.2.answered) = 1)

instance (s : Listener) (job : ℕ) : Decidable (AnsweredOnce s job) :=
  inferInstanceAs (Decidable (_ ∧ (_ ∨ _)))

section Invariant

variable {codec : Codec} {timeText : DateTime → Option String}
  {marshalEnvelope : EdgeEnvelope → ByteArray} {server : QuilkinUdpServer} {s s' : Listener}

/-- Every admitted packet is in the queue or was taken, and what was taken is either finished or in
the hands of one worker. A worker leaves an empty queue only. -/
structure Inv (s : Listener) : Prop where
  staffed : 0 < s.config.workers
  numbered : (s.queue ++ s.taken.map Prod.snd).Perm (List.range s.admitted.length)
  finishedOnce : (s.finished.map Prod.fst).Nodup
  finishedTaken : ∀ job ∈ s.finished.map Prod.fst, job ∈ s.taken.map Prod.snd
  holder : ∀ job ∈ s.taken.map Prod.snd, job ∉ s.finished.map Prod.fst →
    ∃ w : ℕ, (w : Int) < s.config.workers ∧ (s.workers w).job = some job
  held : ∀ w job, (s.workers w).job = some job →
    job ∈ s.taken.map Prod.snd ∧ job ∉ s.finished.map Prod.fst
  apart : ∀ w w' job, (s.workers w).job = some job → (s.workers w').job = some job → w = w'
  left : ∀ w, (s.workers w).left → s.queue = [] ∧ (s.phase = .draining ∨ s.phase = .returned)
  returned : s.phase = .returned → ∀ w : ℕ, (w : Int) < s.config.workers → (s.workers w).left

theorem Worker.job_of_left {worker : Worker} (h : worker.left) : worker.job = none := by
  cases worker <;> simp_all [Worker.left, Worker.job]

theorem Worker.not_left {worker : Worker} {job : ℕ} (h : worker.job = some job) :
    worker.left = false := by
  cases worker <;> simp_all [Worker.left, Worker.job]

theorem inv_listen {config : ListenerConfig} {cache : InteractionReplayCache}
    (h : listen config cache = some s) : Inv s := by
  unfold listen at h
  split at h
  case isFalse => cases h
  case isTrue hconfig =>
  cases h
  have hworkers : positiveInt64.check "worker_count" config.workers = [] :=
    (List.append_eq_nil_iff.mp (List.append_eq_nil_iff.mp hconfig).1).2
  refine ⟨?_, List.Perm.refl _, List.nodup_nil, ?_, ?_, ?_, ?_, ?_, ?_⟩
  · exact of_decide_eq_true (FieldText.Rule.check_eq_nil.mp hworkers)
  · simp
  · simp
  · simp [Worker.job]
  · simp [Worker.job]
  · simp [Worker.left]
  · simp

theorem Inv.setCache (h : Inv s) (cache : InteractionReplayCache) :
    Inv { s with cache := cache } :=
  ⟨h.staffed, h.numbered, h.finishedOnce, h.finishedTaken, h.holder, h.held, h.apart, h.left,
    h.returned⟩

theorem Inv.setPhase (h : Inv s) {phase : Phase}
    (hleft : ∀ w, (s.workers w).left → phase = .draining ∨ phase = .returned)
    (hreturned : phase = .returned → ∀ w : ℕ, (w : Int) < s.config.workers → (s.workers w).left) :
    Inv { s with phase := phase } :=
  ⟨h.staffed, h.numbered, h.finishedOnce, h.finishedTaken, h.holder, h.held, h.apart,
    fun w hw => ⟨(h.left w hw).1, hleft w hw⟩, hreturned⟩

theorem Inv.not_left (h : Inv s) (hdraining : s.phase ≠ .draining) (hreturned : s.phase ≠ .returned)
    (w : ℕ) : ¬ (s.workers w).left := by
  intro hw
  rcases (h.left w hw).2 with hphase | hphase
  · exact hdraining hphase
  · exact hreturned hphase

theorem Inv.goto (h : Inv s) {w job : ℕ} {worker : Worker} (hold : (s.workers w).job = some job)
    (hnew : worker.job = some job) : Inv (s.goto w worker) := by
  have hjobs : ∀ v, (Function.update s.workers w worker v).job = (s.workers v).job := by
    intro v
    by_cases hv : v = w
    · subst hv
      simp [hold, hnew]
    · simp [hv]
  have hleft : ∀ v, (Function.update s.workers w worker v).left = (s.workers v).left := by
    intro v
    by_cases hv : v = w
    · subst hv
      simp [Worker.not_left hold, Worker.not_left hnew]
    · simp [hv]
  refine ⟨h.staffed, h.numbered, h.finishedOnce, h.finishedTaken, ?_, ?_, ?_, ?_, ?_⟩
  · simpa only [Listener.goto, hjobs] using h.holder
  · simpa only [Listener.goto, hjobs] using h.held
  · simpa only [Listener.goto, hjobs] using h.apart
  · simpa only [Listener.goto, hleft] using h.left
  · simpa only [Listener.goto, hleft] using h.returned

theorem Inv.conclude (h : Inv s) {w job : ℕ} (hold : (s.workers w).job = some job)
    (outcome : Outcome) : Inv (s.conclude w job outcome) := by
  have hheld := h.held w job hold
  have hjobs : ∀ v j, (Function.update s.workers w Worker.idle v).job = some j →
      v ≠ w ∧ (s.workers v).job = some j := by
    intro v j hv
    by_cases hvw : v = w
    · subst hvw
      simp [Worker.job] at hv
    · exact ⟨hvw, by simpa [hvw] using hv⟩
  have hleft : ∀ v, (Function.update s.workers w Worker.idle v).left = (s.workers v).left := by
    intro v
    by_cases hvw : v = w
    · subst hvw
      rw [Function.update_self, Worker.not_left hold]
      rfl
    · simp [hvw]
  refine ⟨h.staffed, h.numbered, ?_, ?_, ?_, ?_, ?_, ?_, ?_⟩
  · exact List.nodup_cons.mpr ⟨hheld.2, h.finishedOnce⟩
  · intro j hj
    rcases List.mem_cons.mp hj with rfl | hj
    · exact hheld.1
    · exact h.finishedTaken j hj
  · intro j htaken hunfinished
    have hne : j ≠ job := fun heq => hunfinished (heq ▸ List.mem_cons_self)
    obtain ⟨v, hv, hvj⟩ := h.holder j htaken fun hj => hunfinished (List.mem_cons_of_mem _ hj)
    have hvw : v ≠ w := by
      rintro rfl
      exact hne (Option.some.inj (hvj.symm.trans hold))
    exact ⟨v, hv, by simpa [Listener.conclude, Listener.goto, hvw] using hvj⟩
  · intro v j hv
    obtain ⟨hvw, hbefore⟩ := hjobs v j hv
    have hj := h.held v j hbefore
    refine ⟨hj.1, fun hfinished => ?_⟩
    rcases List.mem_cons.mp hfinished with heq | hfinished
    · exact hvw (h.apart v w j hbefore (hold.trans (congrArg some heq.symm)))
    · exact hj.2 hfinished
  · intro v v' j hv hv'
    exact h.apart v v' j (hjobs v j hv).2 (hjobs v' j hv').2
  · simpa only [Listener.conclude, Listener.goto, hleft] using h.left
  · simpa only [Listener.conclude, Listener.goto, hleft] using h.returned

theorem Inv.take (h : Inv s) {w job : ℕ} {queue : List ℕ} (hw : (w : Int) < s.config.workers)
    (hqueue : s.queue = job :: queue) (hidle : s.workers w = .idle) :
    Inv ({ s with queue := queue, taken := (w, job) :: s.taken }.goto w (.handling job)) := by
  have hnodup : (job :: queue ++ s.taken.map Prod.snd).Nodup :=
    hqueue ▸ h.numbered.nodup_iff.mpr List.nodup_range
  have hnew : job ∉ s.taken.map Prod.snd :=
    fun hmem => (List.nodup_cons.mp hnodup).1 (List.mem_append_right _ hmem)
  have hstays : ∀ v, ¬ (s.workers v).left :=
    fun v hv => List.cons_ne_nil _ _ (hqueue.symm.trans (h.left v hv).1)
  have hjobs : ∀ v j, (Function.update s.workers w (Worker.handling job) v).job = some j →
      (v = w ∧ j = job) ∨ (v ≠ w ∧ (s.workers v).job = some j) := by
    intro v j hv
    by_cases hvw : v = w
    · subst hvw
      simp only [Function.update_self, Worker.job, Option.some.injEq] at hv
      exact .inl ⟨rfl, hv.symm⟩
    · exact .inr ⟨hvw, by simpa [hvw] using hv⟩
  have hleft : ∀ v, ¬ (Function.update s.workers w (Worker.handling job) v).left := by
    intro v
    by_cases hvw : v = w
    · subst hvw
      simp [Worker.left]
    · simpa [hvw] using hstays v
  refine ⟨h.staffed, ?_, h.finishedOnce, ?_, ?_, ?_, ?_, ?_, ?_⟩
  · refine List.perm_middle.trans ?_
    have hnumbered := h.numbered
    rw [hqueue] at hnumbered
    exact hnumbered
  · exact fun j hj => List.mem_cons_of_mem _ (h.finishedTaken j hj)
  · intro j htaken hunfinished
    rcases List.mem_cons.mp htaken with rfl | htaken
    · exact ⟨w, hw, by simp [Listener.goto, Worker.job]⟩
    · obtain ⟨v, hv, hvj⟩ := h.holder j htaken hunfinished
      have hvw : v ≠ w := by
        rintro rfl
        simp [hidle, Worker.job] at hvj
      exact ⟨v, hv, by simpa [Listener.goto, hvw] using hvj⟩
  · intro v j hv
    rcases hjobs v j hv with ⟨-, rfl⟩ | ⟨-, hbefore⟩
    · exact ⟨List.mem_cons_self, fun hj => hnew (h.finishedTaken _ hj)⟩
    · exact ⟨List.mem_cons_of_mem _ (h.held v j hbefore).1, (h.held v j hbefore).2⟩
  · intro v v' j hv hv'
    rcases hjobs v j hv with ⟨hvw, hj⟩ | ⟨-, hbefore⟩
    · rcases hjobs v' j hv' with ⟨hvw', -⟩ | ⟨-, hbefore'⟩
      · exact hvw.trans hvw'.symm
      · exact absurd (hj ▸ (h.held v' j hbefore').1) hnew
    · rcases hjobs v' j hv' with ⟨-, hj⟩ | ⟨-, hbefore'⟩
      · exact absurd (hj ▸ (h.held v j hbefore).1) hnew
      · exact h.apart v v' j hbefore hbefore'
  · exact fun v hv => absurd hv (hleft v)
  · exact fun hphase v hv => absurd (h.returned hphase v hv) (hstays v)

theorem Inv.leave (h : Inv s) {w : ℕ} (hphase : s.phase = .draining) (hqueue : s.queue = [])
    (hidle : s.workers w = .idle) : Inv (s.goto w .done) := by
  have hjobs : ∀ v, (Function.update s.workers w Worker.done v).job = (s.workers v).job := by
    intro v
    by_cases hv : v = w
    · subst hv
      simp [hidle, Worker.job]
    · simp [hv]
  refine ⟨h.staffed, h.numbered, h.finishedOnce, h.finishedTaken, ?_, ?_, ?_, ?_, ?_⟩
  · simpa only [Listener.goto, hjobs] using h.holder
  · simpa only [Listener.goto, hjobs] using h.held
  · simpa only [Listener.goto, hjobs] using h.apart
  · exact fun v _ => ⟨hqueue, .inl hphase⟩
  · exact fun hreturned => absurd (hphase.symm.trans hreturned) (by simp)

theorem Inv.enqueue (h : Inv s) (hleft : ∀ w, ¬ (s.workers w).left) (job : UdpPacketJob) :
    Inv (s.enqueue codec marshalEnvelope server job) := by
  have hrefuse : ∀ code message,
      Inv (s.refuse codec marshalEnvelope server job code message) := by
    intro code message
    unfold Listener.refuse
    dsimp only
    split
    · exact ⟨h.staffed, h.numbered, h.finishedOnce, h.finishedTaken, h.holder, h.held, h.apart,
        h.left, h.returned⟩
    · exact h
  unfold Listener.enqueue
  split
  case isTrue => exact hrefuse _ _
  case isFalse =>
  split
  case isFalse => exact hrefuse _ _
  case isTrue =>
  refine ⟨h.staffed, ?_, h.finishedOnce, h.finishedTaken, h.holder, h.held, h.apart,
    fun w hw => absurd hw (hleft w), h.returned⟩
  rw [List.length_append, List.length_singleton, List.range_succ, List.append_assoc]
  refine (List.Perm.append_left _ List.perm_append_comm).trans ?_
  rw [← List.append_assoc]
  exact List.Perm.append_right _ h.numbered

theorem inv_step {e : Event} (h : Inv s)
    (hstep : s.step codec timeText marshalEnvelope server e = some s') : Inv s' := by
  cases e with
  | cancel =>
    cases hstep
    exact ⟨h.staffed, h.numbered, h.finishedOnce, h.finishedTaken, h.holder, h.held, h.apart,
      h.left, h.returned⟩
  | closeSocket =>
    simp only [Listener.step, Option.ite_none_right_eq_some] at hstep
    cases hstep.2
    exact ⟨h.staffed, h.numbered, h.finishedOnce, h.finishedTaken, h.holder, h.held, h.apart,
      h.left, h.returned⟩
  | read job =>
    simp only [Listener.step, Option.ite_none_right_eq_some] at hstep
    obtain ⟨⟨hphase, -⟩, hs⟩ := hstep
    cases hs
    exact h.setPhase (fun w hw => absurd hw (h.not_left (by simp [hphase]) (by simp [hphase]) w))
      (fun hreturned => nomatch hreturned)
  | enqueue =>
    simp only [Listener.step] at hstep
    split at hstep
    case h_2 => cases hstep
    case h_1 job hphase =>
    cases hstep
    have hleft := h.not_left (by simp [hphase]) (by simp [hphase])
    have hread : Inv { s with phase := .reading } :=
      h.setPhase (fun w hw => absurd hw (hleft w)) (fun hreturned => nomatch hreturned)
    exact hread.enqueue hleft job
  | readError =>
    simp only [Listener.step, Option.ite_none_right_eq_some] at hstep
    cases hstep.2
    exact h.setPhase (fun _ _ => .inl rfl) (fun hreturned => nomatch hreturned)
  | take w =>
    simp only [Listener.step, Option.ite_none_right_eq_some] at hstep
    obtain ⟨hw, hs⟩ := hstep
    split at hs
    case h_2 => cases hs
    case h_1 job queue hidle hqueue =>
    cases hs
    exact h.take hw hqueue hidle
  | handle w now sourceAllowed principalAllowed =>
    simp only [Listener.step] at hstep
    split at hstep
    case h_2 => cases hstep
    case h_1 job hworker =>
    have hjob : (s.workers w).job = some job := by simp [hworker, Worker.job]
    obtain ⟨admitted, -, hs⟩ := Option.map_eq_some_iff.mp hstep
    subst hs
    unfold Listener.handle
    dsimp only
    split
    · exact h.conclude hjob _
    · exact (h.setCache _).goto hjob rfl
    · exact (h.setCache _).goto hjob rfl
  | reply w now answer =>
    simp only [Listener.step] at hstep
    split at hstep
    case h_2 => cases hstep
    case h_1 job call hworker =>
    cases hstep
    have hjob : (s.workers w).job = some job := by simp [hworker, Worker.job]
    exact (h.setCache _).goto hjob rfl
  | write w =>
    simp only [Listener.step] at hstep
    split at hstep
    case h_2 => cases hstep
    case h_1 job body hworker =>
    cases hstep
    have hjob : (s.workers w).job = some job := by simp [hworker, Worker.job]
    exact h.conclude hjob _
  | leave w =>
    simp only [Listener.step, Option.ite_none_right_eq_some] at hstep
    obtain ⟨⟨-, hphase, hqueue⟩, hs⟩ := hstep
    split at hs
    case h_2 => cases hs
    case h_1 hidle =>
    cases hs
    exact h.leave hphase hqueue hidle
  | finish =>
    simp only [Listener.step, Option.ite_none_right_eq_some] at hstep
    obtain ⟨⟨-, hleft⟩, hs⟩ := hstep
    cases hs
    refine ⟨h.staffed, h.numbered, h.finishedOnce, h.finishedTaken, h.holder, h.held, h.apart,
      fun w hw => ⟨(h.left w hw).1, .inr rfl⟩, fun _ w hw => ?_⟩
    have hrange : w < s.config.workers.toNat := by
      change (w : Int) < s.config.workers at hw
      omega
    exact hleft w (List.mem_range.mpr hrange)

theorem inv_run {events : List Event} (h : Inv s)
    (hrun : s.run codec timeText marshalEnvelope server events = some s') : Inv s' := by
  induction events generalizing s with
  | nil =>
    cases hrun
    exact h
  | cons e events ih =>
    obtain ⟨next, hstep, hrun⟩ := Option.bind_eq_some_iff.mp hrun
    exact ih (inv_step h hstep) hrun

/-- When the listener has returned, every admitted packet was taken once and finished once. -/
theorem Inv.all_finished (h : Inv s) (hreturned : s.phase = .returned) {job : ℕ}
    (hjob : job < s.admitted.length) :
    (s.taken.map Prod.snd).count job = 1 ∧ job ∈ s.finished.map Prod.fst := by
  have hqueue : s.queue = [] := (h.left 0 (h.returned hreturned 0 (by simpa using h.staffed))).1
  have htaken : (s.taken.map Prod.snd).Perm (List.range s.admitted.length) := by
    simpa [hqueue] using h.numbered
  have hmem : job ∈ s.taken.map Prod.snd := htaken.mem_iff.mpr (List.mem_range.mpr hjob)
  refine ⟨List.count_eq_one_of_mem (htaken.nodup_iff.mpr List.nodup_range) hmem, ?_⟩
  by_contra hunfinished
  obtain ⟨w, hw, hheld⟩ := h.holder job hmem hunfinished
  rw [Worker.job_of_left (h.returned hreturned w hw)] at hheld
  cases hheld

theorem Inv.lt_of_finished (h : Inv s) {job : ℕ} {outcome : Outcome}
    (hmem : (job, outcome) ∈ s.finished) : job < s.admitted.length := by
  have htaken := h.finishedTaken job (List.mem_map_of_mem hmem)
  exact List.mem_range.mp (h.numbered.mem_iff.mp (List.mem_append_right _ htaken))

theorem finished_listen {config : ListenerConfig} {cache : InteractionReplayCache}
    (h : listen config cache = some s) : s.finished = [] := by
  unfold listen at h
  split at h
  · cases h
    rfl
  · cases h

end Invariant

section Responses

variable {codec : Codec} {timeText : DateTime → Option String}
  {marshalEnvelope : EdgeEnvelope → ByteArray} {server : QuilkinUdpServer} {s s' : Listener}

def Outcome.failed : Outcome → Bool
  | .unsent _ => true
  | _ => false

theorem respond_failed_iff (body : ByteArray) :
    (s.respond codec marshalEnvelope server body).failed = false ↔ s.socketOpen = true ∧
      ∃ datagram, writeResponse codec marshalEnvelope server body = .ok datagram := by
  unfold Listener.respond
  cases hwrite : writeResponse codec marshalEnvelope server body with
  | error e => simp [Outcome.failed]
  | ok datagram => cases hopen : s.socketOpen <;> simp [Outcome.failed]

theorem finished_enqueue (job : UdpPacketJob) :
    (s.enqueue codec marshalEnvelope server job).finished = s.finished := by
  have hrefuse : ∀ code message,
      (s.refuse codec marshalEnvelope server job code message).finished = s.finished := by
    intro code message
    unfold Listener.refuse
    dsimp only
    split <;> rfl
  unfold Listener.enqueue
  split
  · exact hrefuse _ _
  · split
    · rfl
    · exact hrefuse _ _

theorem step_finished {e : Event}
    (hstep : s.step codec timeText marshalEnvelope server e = some s') :
    ∃ new, s'.finished = new ++ s.finished ∧
      (Answers codec marshalEnvelope server s e ↔ ∀ f ∈ new, f.2.failed = false) := by
  cases e with
  | cancel =>
    cases hstep
    exact ⟨[], rfl, by simp [Answers]⟩
  | closeSocket | read | readError | finish =>
    simp only [Listener.step, Option.ite_none_right_eq_some] at hstep
    cases hstep.2
    exact ⟨[], rfl, by simp [Answers]⟩
  | enqueue =>
    simp only [Listener.step] at hstep
    split at hstep
    case h_2 => cases hstep
    case h_1 job hphase =>
    cases hstep
    exact ⟨[], finished_enqueue job, by simp [Answers]⟩
  | take w | leave w =>
    simp only [Listener.step, Option.ite_none_right_eq_some] at hstep
    obtain ⟨-, hs⟩ := hstep
    split at hs
    case h_2 => cases hs
    case h_1 =>
    cases hs
    exact ⟨[], rfl, by simp [Answers]⟩
  | handle w now sourceAllowed principalAllowed =>
    simp only [Listener.step] at hstep
    split at hstep
    case h_2 => cases hstep
    case h_1 job hworker =>
    obtain ⟨admitted, -, hs⟩ := Option.map_eq_some_iff.mp hstep
    subst hs
    unfold Listener.handle
    dsimp only
    split
    · exact ⟨[(job, .limited)], rfl, by simp [Answers, Outcome.failed]⟩
    · exact ⟨[], rfl, by simp [Answers]⟩
    · exact ⟨[], rfl, by simp [Answers]⟩
  | reply w now answer =>
    simp only [Listener.step] at hstep
    split at hstep
    case h_2 => cases hstep
    case h_1 job call hworker =>
    cases hstep
    exact ⟨[], rfl, by simp [Answers]⟩
  | write w =>
    simp only [Listener.step] at hstep
    split at hstep
    case h_2 => cases hstep
    case h_1 job body hworker =>
    cases hstep
    refine ⟨[(job, s.respond codec marshalEnvelope server body)], rfl, ?_⟩
    rw [List.forall_mem_singleton, respond_failed_iff]
    constructor
    · exact fun h => h job body hworker
    · intro h job' body' hworker'
      rw [hworker] at hworker'
      cases hworker'
      exact h

/-- A run answers everything exactly when nothing it finishes is left unanswered. -/
theorem answersAll_iff {events : List Event}
    (hrun : s.run codec timeText marshalEnvelope server events = some s') :
    ∃ new, s'.finished = new ++ s.finished ∧
      (AnswersAll codec timeText marshalEnvelope server s events ↔
        ∀ f ∈ new, f.2.failed = false) := by
  induction events generalizing s with
  | nil =>
    cases hrun
    exact ⟨[], rfl, by simp [AnswersAll]⟩
  | cons e events ih =>
    obtain ⟨next, hstep, hrun⟩ := Option.bind_eq_some_iff.mp hrun
    obtain ⟨first, hfirst, hanswers⟩ := step_finished hstep
    obtain ⟨later, hlater, hothers⟩ := ih hrun
    refine ⟨later ++ first, by rw [hlater, hfirst, List.append_assoc], ?_⟩
    have hnext : (∀ n, s.step codec timeText marshalEnvelope server e = some n →
        AnswersAll codec timeText marshalEnvelope server n events) ↔
        AnswersAll codec timeText marshalEnvelope server next events := by
      simp [hstep]
    rw [AnswersAll, hnext, hanswers, hothers, List.forall_mem_append, and_comm]

theorem countP_answered {finished : List (ℕ × Outcome)} (hnodup : (finished.map Prod.fst).Nodup)
    {job : ℕ} {outcome : Outcome} (hmem : (job, outcome) ∈ finished) :
    (finished.countP fun f => f.1 = job ∧ f.2.answered) = if outcome.answered then 1 else 0 := by
  induction finished with
  | nil => cases hmem
  | cons f finished ih =>
    obtain ⟨hnew, hnodup⟩ := List.nodup_cons.mp hnodup
    rw [List.countP_cons]
    rcases List.mem_cons.mp hmem with rfl | hmem
    · have hothers : (finished.countP fun f => f.1 = job ∧ f.2.answered) = 0 := by
        refine List.countP_eq_zero.mpr fun g hg hcounted => hnew ?_
        exact List.mem_map.mpr ⟨g, hg, (of_decide_eq_true hcounted).1⟩
      rw [hothers]
      simp
    · have hne : f.1 ≠ job := fun heq => hnew (heq ▸ List.mem_map_of_mem hmem)
      rw [ih hnodup hmem]
      simp [hne]

/-- When the listener has returned, a packet was answered once unless its end is a failure. -/
theorem answeredOnce_iff (h : Inv s) (hreturned : s.phase = .returned) {job : ℕ}
    {outcome : Outcome} (hjob : job < s.admitted.length) (hmem : (job, outcome) ∈ s.finished) :
    AnsweredOnce s job ↔ outcome.failed = false := by
  have hlimited : (job, Outcome.limited) ∈ s.finished ↔ outcome = .limited := by
    constructor
    · intro hlimited
      exact (Prod.mk.inj (List.inj_on_of_nodup_map h.finishedOnce hmem hlimited rfl)).2
    · rintro rfl
      exact hmem
  rw [AnsweredOnce, countP_answered h.finishedOnce hmem, hlimited]
  have htaken := (h.all_finished hreturned hjob).1
  cases outcome <;> simp [htaken, Outcome.answered, Outcome.failed]

end Responses

section Seeded

open EveTrade.GatewayIdentity

def oneWorker : ListenerConfig := ⟨65535, 1, 1⟩

def oneWorkerListener : Option Listener := listen oneWorker (newInteractionReplayCache 1000 none)

def queuedAnswer : MarketAnswer :=
  .ok (some ⟨"issue", "operation", 0, "queued", "", "", "", "", ""⟩)

def sellOrderRun (s : Listener) (events : List Event) : Option Listener :=
  s.run sellOrderCodec (fun _ => some "1970-01-01T00:00:00Z") EdgeEnvelope.payload guardedServer
    events

def servedEvents : List Event :=
  [.read ⟨"client", "sell".toByteArray⟩, .enqueue, .take 0, .handle 0 0 true true,
    .reply 0 1 queuedAnswer, .write 0, .cancel, .closeSocket, .readError, .leave 0, .finish]

/-- The sell order is admitted, the context is cancelled, and the market queues the order after the
socket has been closed. -/
def shutdownEvents : List Event :=
  [.read ⟨"client", "sell".toByteArray⟩, .enqueue, .cancel, .closeSocket, .readError, .take 0,
    .handle 0 0 true true, .reply 0 1 queuedAnswer, .write 0, .leave 0, .finish]

end Seeded

end EveTrade.GatewayListener
