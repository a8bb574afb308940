import EveTrade.GatewayIdentity
import EveTrade.GatewayReplay
import EveTrade.GatewayResponses

set_option autoImplicit false

/-!
# Workers that share the replay cache

Workers handle packets at the same time and meet in the replay cache only. A packet is one step up to
its replay check, since the cache is locked there, and the return of its call is another one. Between
the two any other packets may be handled.
-/
namespace EveTrade.GatewayWorkers

open SettlementTypes RecencyList GatewayPackets GatewayIdentity GatewayReplay GatewayResponses

/-- A call of the market that has not returned. -/
structure Call where
  request : AuthenticatedPayload
  startedAt : Int

/-- A body that was recorded, whose packet it answered, and until when it is kept. -/
structure Record where
  request : AuthenticatedPayload
  body : ByteArray
  expiresAt : Int

/-- A body that was handed to `writeResponse` for an admitted packet, and whether it is a recorded
one. -/
structure Sent where
  request : AuthenticatedPayload
  body : ByteArray
  recorded : Bool

/-- The cache, the calls under way, and what has been recorded and sent so far. -/
structure Gateway where
  cache : InteractionReplayCache
  calls : List Call
  records : List Record
  sent : List Sent

inductive Reaction where
  | dropped
  | answered (body : ByteArray)
  | called (request : AuthenticatedPayload)

inductive Event where
  | packet (sourceAllowed principalAllowed : Bool) (packet : ByteArray)
  | reply (i : ℕ) (answer : MarketAnswer)

section Steps

/-- What `handleReplay` answers; none lets the packet pass. -/
def handleReplay (interactionId : String) : ReplayDisposition × ByteArray → Option ByteArray
  | (.overflow, _) =>
    some (errorBody interactionId "gateway_capacity" ⟨"temporarily overloaded", 0⟩)
  | (.cached, response) => some response
  | (.inFlight, _) =>
    some (errorBody interactionId "request_in_progress" ⟨"request is still in progress", 0⟩)
  | (.conflict, _) => some (errorBody interactionId "replay"
      ⟨"replay rejected: interaction_id was already used with a different payload", 0⟩)
  | (.new, _) => none

variable (codec : Codec) (timeText : DateTime → Option String) (server : QuilkinUdpServer)

/-- `handlePacket` up to the call of the market. -/
def Gateway.packet (g : Gateway) (now : Int) (sourceAllowed principalAllowed : Bool)
    (packet : ByteArray) : Reaction × Gateway :=
  match receive codec server sourceAllowed principalAllowed packet with
  | .dropped => (.dropped, g)
  | .refused interactionId code message =>
    (.answered (errorBody interactionId code ⟨message, 0⟩), g)
  | .admitted request =>
    let begun := g.cache.begin now request.interactionId (codec.sha256 request.payload)
    match handleReplay request.interactionId begun.1 with
    | some body =>
      (.answered body, { g with
        cache := begun.2
        sent := ⟨request, body, begun.1.1 = .cached⟩ :: g.sent })
    | none => (.called request, { g with cache := begun.2, calls := ⟨request, now⟩ :: g.calls })

/-- The rest of `handlePacket`, when the call of the market has returned. -/
def Gateway.finish (g : Gateway) (now : Int) (call : Call) (conclusion : Conclusion) : Gateway :=
  let id := call.request.interactionId
  let fingerprint := codec.sha256 call.request.payload
  if conclusion.recorded then
    { g with
      cache := g.cache.complete now id fingerprint conclusion.body
      records := ⟨call.request, conclusion.body, now + g.cache.ttl⟩ :: g.records
      sent := ⟨call.request, conclusion.body, true⟩ :: g.sent }
  else
    { g with
      cache := g.cache.release id fingerprint
      sent := ⟨call.request, conclusion.body, false⟩ :: g.sent }

def Gateway.reply (g : Gateway) (now : Int) (i : ℕ) (answer : MarketAnswer) : Gateway :=
  match g.calls[i]? with
  | none => g
  | some call =>
    let id := call.request.interactionId
    { g with calls := g.calls.eraseIdx i }.finish codec now call
      (conclude id (forwardToMarket timeText id answer))

def step (g : Gateway) (now : Int) : Event → Gateway
  | .packet sourceAllowed principalAllowed packet =>
    (g.packet codec server now sourceAllowed principalAllowed packet).2
  | .reply i answer => g.reply codec timeText now i answer

def run (g : Gateway) : List (Int × Event) → Gateway
  | [] => g
  | (now, event) :: events => run (step codec timeText server g now event) events

/-- No call under way has outlived its entry. -/
def Fresh (g : Gateway) (now : Int) : Prop := ∀ c ∈ g.calls, now < c.startedAt + g.cache.ttl

def InTime (g : Gateway) : List (Int × Event) → Prop
  | [] => True
  | (now, event) :: events =>
    Fresh g now ∧ InTime (step codec timeText server g now event) events

end Steps

def Clocked (events : List (Int × Event)) : Prop := events.Pairwise fun a b => a.1 ≤ b.1

def start (ttl : Int) (maxEntries : Option Int) : Gateway :=
  ⟨newInteractionReplayCache ttl maxEntries, [], [], []⟩

/-- The id that a payload names itself, if it names one. -/
def ownId (codec : Codec) (payload : ByteArray) : Option String :=
  (extractInteractionId codec payload).filter fun id => id != ""

section Invariant

variable {codec : Codec} {timeText : DateTime → Option String} {server : QuilkinUdpServer}
  {g : Gateway} {last now : Int}
variable {c : InteractionReplayCache} {id : String} {entry : InteractionReplayEntry}

/-- What the cache has to do with the calls under way and with the bodies recorded. -/
structure Inv (codec : Codec) (g : Gateway) (last : Int) : Prop where
  distinct : (g.calls.map fun c => c.request.interactionId).Nodup
  pending : ∀ c ∈ g.calls, g.cache.entries.find? c.request.interactionId =
    some ⟨codec.sha256 c.request.payload, .empty, c.startedAt + g.cache.ttl⟩
  kept : ∀ r ∈ g.records, last < r.expiresAt →
    g.cache.entries.find? r.request.interactionId =
      some ⟨codec.sha256 r.request.payload, r.body, r.expiresAt⟩
  recorded : ∀ row ∈ g.cache.entries.rows, row.2.response.size ≠ 0 →
    ∃ r ∈ g.records, r.request.interactionId = row.1 ∧
      codec.sha256 r.request.payload = row.2.fingerprint ∧ r.body = row.2.response
  bodies : ∀ r ∈ g.records, r.body.size ≠ 0 ∧ ∀ id message, r.body ≠ errorBody id "replay" message
  callers : ∀ c ∈ g.calls,
    validateAuthenticatedActor codec c.request.payload c.request.principalId = .ok ()
  actors : ∀ r ∈ g.records,
    validateAuthenticatedActor codec r.request.payload r.request.principalId = .ok ()
  callIds : ∀ c ∈ g.calls, ∀ id ∈ ownId codec c.request.payload, c.request.interactionId = id
  recordIds : ∀ r ∈ g.records, ∀ id ∈ ownId codec r.request.payload,
    r.request.interactionId = id
  answers : ∀ s ∈ g.sent, s.recorded = true → ∃ r ∈ g.records, r.body = s.body ∧
    r.request.interactionId = s.request.interactionId ∧
    r.request.payload = s.request.payload ∧ r.request.principalId = s.request.principalId

theorem inv_start (codec : Codec) (ttl : Int) (maxEntries : Option Int) (last : Int) :
    Inv codec (start ttl maxEntries) last where
  distinct := List.nodup_nil
  pending := fun _ hc => nomatch hc
  kept := fun _ hr => nomatch hr
  recorded := fun _ hr => nomatch hr
  bodies := fun _ hr => nomatch hr
  callers := fun _ hc => nomatch hc
  actors := fun _ hr => nomatch hr
  callIds := fun _ hc => nomatch hc
  recordIds := fun _ hr => nomatch hr
  answers := fun _ hs => nomatch hs

theorem cleaned_find? (h : c.entries.find? id = some entry) (hlive : now < entry.expiresAt) :
    (cleaned c now).find? id = some entry :=
  Recency.find?_eq_some_iff.mpr (mem_cleaned (Recency.find?_eq_some_iff.mp h) hlive)

/-- A `begin` keeps every live entry, and enters a new one only for an id that has none. -/
structure Kept (c c' : InteractionReplayCache) (now : Int) : Prop where
  ttl : c'.ttl = c.ttl
  live : ∀ id entry, c.entries.find? id = some entry → now < entry.expiresAt →
    c'.entries.find? id = some entry
  rows : ∀ row ∈ c'.entries.rows, row.2.response.size ≠ 0 → row ∈ c.entries.rows

theorem kept_begin (c : InteractionReplayCache) (now : Int) (id : String)
    (fingerprint : ByteArray) : Kept c (c.begin now id fingerprint).2 now := by
  refine begin_elim (P := fun _ c' => Kept c c' now) ?_
  intro answer c' hbegun
  cases hbegun with
  | hit entry found live =>
    refine ⟨rfl, ?_, ?_⟩
    · intro other e hother hlive
      have hcleaned := cleaned_find? hother hlive
      by_cases heq : other = id
      · subst heq
        rw [found] at hcleaned
        cases hcleaned
        exact Recency.find?_use_self _ _ _
      · exact (Recency.find?_use_of_ne heq _).trans hcleaned
    · intro row hrow _
      rcases Recency.mem_use.mp hrow with ⟨hrow, -⟩ | rfl
      · exact mem_of_mem_cleaned hrow
      · exact mem_of_mem_cleaned (Recency.find?_eq_some_iff.mp found)
  | full vacant full =>
    refine ⟨rfl, ?_, ?_⟩
    · intro other e hother hlive
      have hcleaned := cleaned_find? hother hlive
      have hne : other ≠ id := by
        rintro rfl
        exact absurd (vacant e hcleaned) (not_le.mpr hlive)
      exact (Recency.find?_remove_of_ne hne).trans hcleaned
    · intro row hrow _
      exact mem_of_mem_cleaned (Recency.mem_remove.mp hrow).1
  | entered vacant room =>
    refine ⟨rfl, ?_, ?_⟩
    · intro other e hother hlive
      have hcleaned := cleaned_find? hother hlive
      have hne : other ≠ id := by
        rintro rfl
        exact absurd (vacant e hcleaned) (not_le.mpr hlive)
      rw [Recency.find?_use_of_ne hne, Recency.find?_remove_of_ne hne]
      exact hcleaned
    · intro row hrow hresponse
      rcases Recency.mem_use.mp hrow with ⟨hrow, -⟩ | rfl
      · exact mem_of_mem_cleaned (Recency.mem_remove.mp hrow).1
      · exact absurd rfl hresponse

theorem admitted_ownId {sourceAllowed principalAllowed : Bool} {packet : ByteArray}
    {request : AuthenticatedPayload} (required : server.authRequired = true)
    (h : receive codec server sourceAllowed principalAllowed packet = .admitted request) :
    ∀ id ∈ ownId codec request.payload, request.interactionId = id := by
  unfold receive at h
  cases hauth : authenticatedPayload codec server packet with
  | error rejection =>
    simp only [hauth] at h
    split_ifs at h
  | ok authenticated =>
    have hextracted := authenticatedPayload_id required hauth
    simp only [hauth] at h
    intro id hid
    obtain ⟨hsome, hne⟩ := Option.filter_eq_some_iff.mp hid
    have hsame : request.payload = authenticated.payload := by
      split_ifs at h <;>
      · obtain rfl := Admission.admitted.inj h
        rfl
    rw [hsame, hextracted] at hsome
    obtain rfl := Option.some.inj hsome
    have hnonempty : authenticated.interactionId ≠ "" := by simpa using hne
    simp only [hnonempty, ne_eq, not_false_eq_true, if_true] at h
    split_ifs at h
    obtain rfl := Admission.admitted.inj h
    rfl

theorem Inv.later (h : Inv codec g last) (hle : last ≤ now) : Inv codec g now :=
  { h with kept := fun r hr hlive => h.kept r hr (lt_of_le_of_lt hle hlive) }

theorem begin_cached {fingerprint : ByteArray}
    (h : (c.begin now id fingerprint).1.1 = .cached) :
    ∃ entry, c.entries.find? id = some entry ∧ entry.fingerprint = fingerprint ∧
      entry.response = (c.begin now id fingerprint).1.2 ∧ entry.response.size ≠ 0 := by
  revert h
  refine begin_elim (P := fun answer _ => answer.1 = .cached →
    ∃ entry, c.entries.find? id = some entry ∧ entry.fingerprint = fingerprint ∧
      entry.response = answer.2 ∧ entry.response.size ≠ 0) ?_
  intro answer c' hbegun hcached
  cases hbegun with
  | hit entry found live =>
    have hfound : c.entries.find? id = some entry :=
      Recency.find?_eq_some_iff.mpr (mem_of_mem_cleaned (Recency.find?_eq_some_iff.mp found))
    unfold InteractionReplayCache.disposition at hcached ⊢
    split_ifs at hcached ⊢ with hfingerprint hresponse
    exact ⟨entry, hfound, not_not.mp hfingerprint, rfl, hresponse⟩
  | full vacant full => cases hcached
  | entered vacant room => cases hcached

theorem begin_new {fingerprint : ByteArray} (h : (c.begin now id fingerprint).1.1 = .new) :
    (∀ entry, c.entries.find? id = some entry → entry.expiresAt ≤ now) ∧
      (c.begin now id fingerprint).2.entries.find? id =
        some ⟨fingerprint, .empty, now + c.ttl⟩ := by
  revert h
  refine begin_elim (P := fun answer c' => answer.1 = .new →
    (∀ entry, c.entries.find? id = some entry → entry.expiresAt ≤ now) ∧
      c'.entries.find? id = some ⟨fingerprint, .empty, now + c.ttl⟩) ?_
  intro answer c' hbegun hnew
  cases hbegun with
  | hit entry found live =>
    unfold InteractionReplayCache.disposition at hnew
    split_ifs at hnew
  | full vacant full => cases hnew
  | entered vacant room =>
    refine ⟨?_, Recency.find?_use_self _ _ _⟩
    intro entry hfound
    by_contra hlive
    exact hlive (vacant entry (cleaned_find? hfound (lt_of_not_ge hlive)))

theorem handleReplay_eq_none {answer : ReplayDisposition × ByteArray}
    (h : handleReplay id answer = none) : answer.1 = .new := by
  obtain ⟨d, response⟩ := answer
  cases d <;> first | rfl | cases h

theorem Inv.begun (h : Inv codec g last) (hle : last ≤ now) (hfresh : Fresh g now) (id : String)
    (fingerprint : ByteArray) :
    Inv codec { g with cache := (g.cache.begin now id fingerprint).2 } now := by
  have hkept := kept_begin g.cache now id fingerprint
  exact {
    h with
    pending := by
      intro c hc
      rw [show (g.cache.begin now id fingerprint).2.ttl = g.cache.ttl from hkept.ttl]
      exact hkept.live _ _ (h.pending c hc) (hfresh c hc)
    kept := by
      intro r hr hlive
      exact hkept.live _ _ (h.kept r hr (lt_of_le_of_lt hle hlive)) hlive
    recorded := by
      intro row hrow hresponse
      exact h.recorded row (hkept.rows row hrow hresponse) hresponse }

/-- A body given from the cache was recorded for the same payload, and so for the same
principal. -/
theorem Inv.cached (h : Inv codec g last)
    (collisionFree : ∀ a b, codec.sha256 a = codec.sha256 b → a = b)
    {request : AuthenticatedPayload}
    (hactor : validateAuthenticatedActor codec request.payload request.principalId = .ok ())
    (hcached : (g.cache.begin now request.interactionId
      (codec.sha256 request.payload)).1.1 = .cached) :
    ∃ r ∈ g.records,
      r.body = (g.cache.begin now request.interactionId (codec.sha256 request.payload)).1.2 ∧
      r.request.interactionId = request.interactionId ∧ r.request.payload = request.payload ∧
      r.request.principalId = request.principalId := by
  obtain ⟨entry, hfound, hfingerprint, hresponse, hsize⟩ := begin_cached hcached
  obtain ⟨r, hr, hid, hsha, hbody⟩ :=
    h.recorded _ (Recency.find?_eq_some_iff.mp hfound) hsize
  have hpayload : r.request.payload = request.payload :=
    collisionFree _ _ (hsha.trans hfingerprint)
  refine ⟨r, hr, hbody.trans hresponse, hid, hpayload, ?_⟩
  have hrecorded := h.actors r hr
  rw [hpayload] at hrecorded
  exact principal_unique hrecorded hactor

theorem Inv.packet (h : Inv codec g last) (hle : last ≤ now) (hfresh : Fresh g now)
    (collisionFree : ∀ a b, codec.sha256 a = codec.sha256 b → a = b)
    (required : server.authRequired = true) (sourceAllowed principalAllowed : Bool)
    (packet : ByteArray) :
    Inv codec (g.packet codec server now sourceAllowed principalAllowed packet).2 now := by
  unfold Gateway.packet
  cases hreceived : receive codec server sourceAllowed principalAllowed packet with
  | dropped => exact h.later hle
  | refused id code message => exact h.later hle
  | admitted request =>
    have hactor := (receive_admitted required hreceived).actor
    have hbegun := h.begun hle hfresh request.interactionId (codec.sha256 request.payload)
    simp only
    cases hreplay : handleReplay request.interactionId
        (g.cache.begin now request.interactionId (codec.sha256 request.payload)).1 with
    | some body =>
      refine { hbegun with answers := ?_ }
      intro s hs hrecorded
      rcases List.mem_cons.mp hs with rfl | hs
      · have hcached := of_decide_eq_true hrecorded
        obtain ⟨r, hr, hbody, hid, hpayload, hprincipal⟩ :=
          h.cached collisionFree hactor hcached
        refine ⟨r, hr, ?_, hid, hpayload, hprincipal⟩
        rw [hbody]
        generalize g.cache.begin now request.interactionId (codec.sha256 request.payload) =
          begun at hreplay hcached
        obtain ⟨⟨d, response⟩, c'⟩ := begun
        cases hcached
        exact Option.some.inj hreplay
      · exact h.answers s hs hrecorded
    | none =>
      obtain ⟨hvacant, hentry⟩ := begin_new (handleReplay_eq_none hreplay)
      have hnew : ∀ c ∈ g.calls, request.interactionId ≠ c.request.interactionId := by
        intro c hc heq
        have hfound := h.pending c hc
        rw [← heq] at hfound
        exact absurd (hvacant _ hfound) (not_le.mpr (hfresh c hc))
      have hown := admitted_ownId required hreceived
      refine { hbegun with distinct := ?_, pending := ?_, callers := ?_, callIds := ?_ }
      · refine List.nodup_cons.mpr ⟨?_, h.distinct⟩
        intro hmem
        obtain ⟨c, hc, heq⟩ := List.mem_map.mp hmem
        exact hnew c hc heq.symm
      · intro c hc
        rcases List.mem_cons.mp hc with rfl | hc
        · simp only [hentry]
          rw [(kept_begin g.cache now request.interactionId (codec.sha256 request.payload)).ttl]
        · exact hbegun.pending c hc
      · intro c hc
        rcases List.mem_cons.mp hc with rfl | hc
        · exact hactor
        · exact h.callers c hc
      · intro c hc
        rcases List.mem_cons.mp hc with rfl | hc
        · exact hown
        · exact h.callIds c hc

theorem Inv.returned (h : Inv codec g last) {i : ℕ} {call : Call} (hcall : g.calls[i]? = some call) :
    call ∈ g.calls ∧ ((g.calls.eraseIdx i).map fun c => c.request.interactionId).Nodup ∧
      ∀ c ∈ g.calls.eraseIdx i, c ∈ g.calls ∧
        c.request.interactionId ≠ call.request.interactionId := by
  obtain ⟨hlt, rfl⟩ := List.getElem?_eq_some_iff.mp hcall
  have hperm := (List.getElem_cons_eraseIdx_perm hlt).map fun c : Call => c.request.interactionId
  have hnodup := hperm.nodup_iff.mpr h.distinct
  rw [List.map_cons] at hnodup
  obtain ⟨hnew, hrest⟩ := List.nodup_cons.mp hnodup
  refine ⟨List.getElem_mem hlt, hrest, ?_⟩
  intro c hc
  refine ⟨List.mem_of_mem_eraseIdx hc, ?_⟩
  intro heq
  exact hnew (List.mem_map.mpr ⟨c, hc, heq⟩)

theorem Inv.not_kept (h : Inv codec g last) {call : Call} (hcall : call ∈ g.calls) {r : Record}
    (hr : r ∈ g.records) (hlive : last < r.expiresAt) :
    r.request.interactionId ≠ call.request.interactionId := by
  intro heq
  have hkept := h.kept r hr hlive
  rw [heq, h.pending call hcall] at hkept
  have hbody : (.empty : ByteArray) = r.body := congrArg InteractionReplayEntry.response
    (Option.some.inj hkept)
  exact (h.bodies r hr).1 (by rw [← hbody]; rfl)

theorem complete_found (hfound : c.entries.find? id = some entry) (body : ByteArray) :
    c.complete now id entry.fingerprint body = { c with entries := c.entries.use id ⟨entry.fingerprint, body, now + c.ttl⟩ } := by
  simp [InteractionReplayCache.complete, hfound]

theorem release_found (hfound : c.entries.find? id = some entry) :
    c.release id entry.fingerprint = c.remove id := by
  simp [InteractionReplayCache.release, hfound]

theorem Inv.reply (h : Inv codec g last) (hle : last ≤ now) (i : ℕ) (answer : MarketAnswer) :
    Inv codec (g.reply codec timeText now i answer) now := by
  unfold Gateway.reply
  cases hcall : g.calls[i]? with
  | none => exact h.later hle
  | some call =>
    obtain ⟨hmem, hdistinct, hothers⟩ := h.returned hcall
    have hfound := h.pending call hmem
    simp only [Gateway.finish]
    generalize hconclusion : conclude call.request.interactionId
      (forwardToMarket timeText call.request.interactionId answer) = conclusion
    obtain ⟨recorded, body⟩ := conclusion
    cases recorded with
    | true =>
      have hbody := conclude_recorded hconclusion
      simp only [if_true, complete_found hfound body]
      refine {
        distinct := hdistinct, pending := ?_, kept := ?_, recorded := ?_, bodies := ?_,
        callers := fun c hc => h.callers c (hothers c hc).1, actors := ?_,
        callIds := fun c hc => h.callIds c (hothers c hc).1, recordIds := ?_, answers := ?_ }
      · intro c hc
        obtain ⟨hc, hne⟩ := hothers c hc
        exact (Recency.find?_use_of_ne hne _).trans (h.pending c hc)
      · intro r hr hlive
        rcases List.mem_cons.mp hr with rfl | hr
        · exact Recency.find?_use_self _ _ _
        · have hlast := lt_of_le_of_lt hle hlive
          exact (Recency.find?_use_of_ne (h.not_kept hmem hr hlast) _).trans (h.kept r hr hlast)
      · intro row hrow hresponse
        rcases Recency.mem_use.mp hrow with ⟨hrow, -⟩ | rfl
        · obtain ⟨r, hr, hrest⟩ := h.recorded row hrow hresponse
          exact ⟨r, List.mem_cons_of_mem _ hr, hrest⟩
        · exact ⟨_, List.mem_cons_self, rfl, rfl, rfl⟩
      · intro r hr
        rcases List.mem_cons.mp hr with rfl | hr
        · exact hbody
        · exact h.bodies r hr
      · intro r hr
        rcases List.mem_cons.mp hr with rfl | hr
        · exact h.callers call hmem
        · exact h.actors r hr
      · intro r hr
        rcases List.mem_cons.mp hr with rfl | hr
        · exact h.callIds call hmem
        · exact h.recordIds r hr
      · intro s hs hrecorded
        rcases List.mem_cons.mp hs with rfl | hs
        · exact ⟨_, List.mem_cons_self, rfl, rfl, rfl, rfl⟩
        · obtain ⟨r, hr, hrest⟩ := h.answers s hs hrecorded
          exact ⟨r, List.mem_cons_of_mem _ hr, hrest⟩
    | false =>
      simp only [Bool.false_eq_true, if_false, release_found hfound]
      refine {
        distinct := hdistinct, pending := ?_, kept := ?_, recorded := ?_, bodies := h.bodies,
        callers := fun c hc => h.callers c (hothers c hc).1, actors := h.actors,
        callIds := fun c hc => h.callIds c (hothers c hc).1, recordIds := h.recordIds,
        answers := ?_ }
      · intro c hc
        obtain ⟨hc, hne⟩ := hothers c hc
        exact (Recency.find?_remove_of_ne hne).trans (h.pending c hc)
      · intro r hr hlive
        have hlast := lt_of_le_of_lt hle hlive
        exact (Recency.find?_remove_of_ne (h.not_kept hmem hr hlast)).trans (h.kept r hr hlast)
      · intro row hrow hresponse
        exact h.recorded row (Recency.mem_remove.mp hrow).1 hresponse
      · intro s hs hrecorded
        rcases List.mem_cons.mp hs with rfl | hs
        · cases hrecorded
        · exact h.answers s hs hrecorded

end Invariant

section Runs

variable {codec : Codec} {timeText : DateTime → Option String} {server : QuilkinUdpServer}
  {g : Gateway} {last now : Int}

theorem Inv.step (h : Inv codec g last) (timeText : DateTime → Option String)
    (server : QuilkinUdpServer) (hle : last ≤ now) (hfresh : Fresh g now)
    (collisionFree : ∀ a b, codec.sha256 a = codec.sha256 b → a = b)
    (required : server.authRequired = true) (event : Event) :
    Inv codec (step codec timeText server g now event) now := by
  cases event with
  | packet sourceAllowed principalAllowed packet =>
    exact h.packet hle hfresh collisionFree required sourceAllowed principalAllowed packet
  | reply i answer => exact h.reply hle i answer

theorem Inv.run (h : Inv codec g last)
    (collisionFree : ∀ a b, codec.sha256 a = codec.sha256 b → a = b)
    (required : server.authRequired = true) {events : List (Int × Event)}
    (hclock : Clocked events) (hlast : ∀ e ∈ events, last ≤ e.1)
    (hintime : InTime codec timeText server g events) (hnow : ∀ e ∈ events, e.1 ≤ now)
    (hle : last ≤ now) : Inv codec (run codec timeText server g events) now := by
  induction events generalizing g last with
  | nil => exact h.later hle
  | cons e events ih =>
    obtain ⟨hfresh, hintime⟩ := hintime
    obtain ⟨hfirst, hclock⟩ := List.pairwise_cons.mp hclock
    have hstep := h.step timeText server (hlast e List.mem_cons_self) hfresh collisionFree
      required e.2
    exact ih hstep hclock hfirst hintime (fun a ha => hnow a (List.mem_cons_of_mem _ ha))
      (hnow e List.mem_cons_self)

theorem begin_live {c : InteractionReplayCache} {id : String} {entry : InteractionReplayEntry}
    (hfound : c.entries.find? id = some entry) (hlive : now < entry.expiresAt)
    (fingerprint : ByteArray) :
    (c.begin now id fingerprint).1 = InteractionReplayCache.disposition entry fingerprint := by
  rw [begin_hit (cleaned_find? hfound hlive) hlive]

theorem packet_admitted {sourceAllowed principalAllowed : Bool} {packet : ByteArray}
    {request : AuthenticatedPayload}
    (hreceived : receive codec server sourceAllowed principalAllowed packet = .admitted request) :
    (g.packet codec server now sourceAllowed principalAllowed packet).1 =
      match handleReplay request.interactionId
          (g.cache.begin now request.interactionId (codec.sha256 request.payload)).1 with
      | some body => .answered body
      | none => .called request := by
  unfold Gateway.packet
  rw [hreceived]
  simp only
  cases handleReplay request.interactionId
    (g.cache.begin now request.interactionId (codec.sha256 request.payload)).1 <;> rfl

/-- A packet whose id has a live entry is answered without a call. -/
theorem packet_answered {sourceAllowed principalAllowed : Bool} {packet : ByteArray}
    {request : AuthenticatedPayload} {entry : InteractionReplayEntry}
    (hreceived : receive codec server sourceAllowed principalAllowed packet = .admitted request)
    (hfound : g.cache.entries.find? request.interactionId = some entry)
    (hlive : now < entry.expiresAt) :
    (g.packet codec server now sourceAllowed principalAllowed packet).1 =
      .answered (
        if entry.fingerprint ≠ codec.sha256 request.payload then
          errorBody request.interactionId "replay"
            ⟨"replay rejected: interaction_id was already used with a different payload", 0⟩
        else if entry.response.size = 0 then
          errorBody request.interactionId "request_in_progress" ⟨"request is still in progress", 0⟩
        else entry.response) := by
  rw [packet_admitted hreceived, begin_live hfound hlive]
  unfold InteractionReplayCache.disposition
  split_ifs <;> rfl

theorem exists_first (events : List (Int × Event)) (hclock : Clocked events) (now : Int)
    (hnow : ∀ e ∈ events, e.1 ≤ now) : ∃ first ≤ now, ∀ e ∈ events, first ≤ e.1 := by
  cases events with
  | nil => exact ⟨now, le_refl now, by simp⟩
  | cons e events =>
    refine ⟨e.1, hnow e List.mem_cons_self, ?_⟩
    intro a ha
    rcases List.mem_cons.mp ha with rfl | ha
    · exact le_refl _
    · exact (List.pairwise_cons.mp hclock).1 a ha

theorem inv_run (collisionFree : ∀ a b, codec.sha256 a = codec.sha256 b → a = b)
    (required : server.authRequired = true) (ttl : Int) (maxEntries : Option Int)
    {events : List (Int × Event)} (hclock : Clocked events)
    (hintime : InTime codec timeText server (start ttl maxEntries) events)
    (hnow : ∀ e ∈ events, e.1 ≤ now) :
    Inv codec (run codec timeText server (start ttl maxEntries) events) now := by
  obtain ⟨first, hle, hfirst⟩ := exists_first events hclock now hnow
  exact (inv_start codec ttl maxEntries first).run collisionFree required hclock hfirst hintime
    hnow hle

theorem exists_last (events : List (Int × Event)) : ∃ last, ∀ e ∈ events, e.1 ≤ last := by
  induction events with
  | nil => exact ⟨0, by simp⟩
  | cons e events ih =>
    obtain ⟨last, hlast⟩ := ih
    refine ⟨max e.1 last, ?_⟩
    intro a ha
    rcases List.mem_cons.mp ha with rfl | ha
    · exact le_max_left _ _
    · exact le_trans (hlast a ha) (le_max_right _ _)

/-- However workers interleave, as long as no call outlives its entry: at most one call of an id is
under way; a packet whose id has a call under way, or a body that is kept, makes no further call, and
it is given that body if its payload is the one that produced it and never otherwise; and a recorded
body goes to the principal whose packet produced it only. A payload that names an id has it as its
id, so for such a payload it is enough that the payloads agree. -/
theorem interactions_answered_once (codec : Codec)
    (collisionFree : ∀ a b, codec.sha256 a = codec.sha256 b → a = b)
    (timeText : DateTime → Option String) (server : QuilkinUdpServer)
    (required : server.authRequired = true) (ttl : Int) (maxEntries : Option Int)
    (events : List (Int × Event)) (hclock : Clocked events)
    (hintime : InTime codec timeText server (start ttl maxEntries) events) :
    let g := run codec timeText server (start ttl maxEntries) events
    (g.calls.map fun c => c.request.interactionId).Nodup ∧
    (∀ now, (∀ e ∈ events, e.1 ≤ now) → Fresh g now →
      ∀ sourceAllowed principalAllowed packet request,
        receive codec server sourceAllowed principalAllowed packet = .admitted request →
        (∀ c ∈ g.calls, c.request.interactionId = request.interactionId →
          ∃ body, (g.packet codec server now sourceAllowed principalAllowed packet).1 =
            .answered body) ∧
        (∀ r ∈ g.records, now < r.expiresAt →
          r.request.interactionId = request.interactionId ∨
            (r.request.payload = request.payload ∧ (ownId codec request.payload).isSome) →
          ∃ body, (g.packet codec server now sourceAllowed principalAllowed packet).1 =
              .answered body ∧
            (r.request.payload = request.payload → body = r.body) ∧
            (r.request.payload ≠ request.payload → body ≠ r.body))) ∧
    (∀ s ∈ g.sent, s.recorded = true → ∃ r ∈ g.records, r.body = s.body ∧
      r.request.payload = s.request.payload ∧
      r.request.principalId = s.request.principalId) := by
  intro g
  obtain ⟨last, hlast⟩ := exists_last events
  have hinv : Inv codec g last := inv_run collisionFree required ttl maxEntries hclock hintime hlast
  refine ⟨hinv.distinct, ?_, ?_⟩
  · intro now hnow hfresh sourceAllowed principalAllowed packet request hreceived
    have hinv : Inv codec g now :=
      inv_run collisionFree required ttl maxEntries hclock hintime hnow
    refine ⟨?_, ?_⟩
    · intro c hc hid
      have hfound := hinv.pending c hc
      rw [hid] at hfound
      exact ⟨_, packet_answered hreceived hfound (hfresh c hc)⟩
    · intro r hr hlive hsame
      have hid : r.request.interactionId = request.interactionId := by
        rcases hsame with hid | ⟨hpayload, hown⟩
        · exact hid
        · obtain ⟨id, hid⟩ := Option.isSome_iff_exists.mp hown
          rw [admitted_ownId required hreceived id hid]
          exact hinv.recordIds r hr id (by rwa [hpayload])
      have hfound := hinv.kept r hr hlive
      rw [hid] at hfound
      obtain ⟨hsize, hreplay⟩ := hinv.bodies r hr
      refine ⟨_, packet_answered hreceived hfound hlive, ?_, ?_⟩
      · intro hpayload
        simp [hpayload, hsize]
      · intro hpayload
        have hdiffer : codec.sha256 r.request.payload ≠ codec.sha256 request.payload :=
          fun heq => hpayload (collisionFree _ _ heq)
        simp only [hdiffer, ne_eq, not_false_eq_true, if_true]
        exact (hreplay _ _).symm
  · intro s hs hrecorded
    obtain ⟨r, hr, hbody, -, hpayload, hprincipal⟩ := hinv.answers s hs hrecorded
    exact ⟨r, hr, hbody, hpayload, hprincipal⟩

end Runs

section Seeded

def sellOrderEvents : List (Int × Event) :=
  [(0, .packet true true "sell".toByteArray),
    (1, .reply 0 (.ok (some ⟨"issue", "operation", 0, "queued", "", "", "", "", ""⟩)))]

def sellOrderGateway : Gateway :=
  run sellOrderCodec (fun _ => some "1970-01-01T00:00:00Z") guardedServer (start 1000 none)
    sellOrderEvents

theorem sellOrderEvents_inTime : InTime sellOrderCodec (fun _ => some "1970-01-01T00:00:00Z")
    guardedServer (start 1000 none) sellOrderEvents := by
  refine ⟨fun c hc => (nomatch hc), ?_, trivial⟩
  intro c hc
  rcases List.mem_cons.mp hc with rfl | hc
  · decide
  · cases hc

theorem interactions_answered_once_sellOrder :
    ∃ r ∈ sellOrderGateway.records, (sellOrderGateway.packet sellOrderCodec guardedServer 2 true true
      "sell".toByteArray).1 = .answered r.body := by
  have hrecords : sellOrderGateway.records.map (fun r => (r.request, r.expiresAt)) =
      [(sellOrderPayload, 1001)] := by rfl
  obtain ⟨r, hr, heq⟩ := List.map_eq_singleton_iff.mp hrecords
  obtain ⟨hrequest, hexpires⟩ := Prod.mk.inj heq
  have hmem : r ∈ sellOrderGateway.records := by simp [hr]
  have hcalls : sellOrderGateway.calls = [] := by rfl
  obtain ⟨-, hpackets, -⟩ := interactions_answered_once sellOrderCodec (fun _ _ h => h)
    (fun _ => some "1970-01-01T00:00:00Z") guardedServer rfl 1000 none sellOrderEvents
    (by simp [Clocked, sellOrderEvents]) sellOrderEvents_inTime
  have hfresh : Fresh sellOrderGateway 2 := by
    intro c hc
    rw [hcalls] at hc
    cases hc
  obtain ⟨body, hanswered, hsame, -⟩ := (hpackets 2 (by decide) hfresh true true _ _
    sellOrder_received).2 r hmem (by rw [hexpires]; decide) (.inl (by rw [hrequest]))
  exact ⟨r, hmem, by rw [← hsame (by rw [hrequest])]; exact hanswered⟩

end Seeded

end EveTrade.GatewayWorkers
