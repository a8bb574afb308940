import EveTrade.GatewayPackets
import EveTrade.LocalDevWorld

set_option autoImplicit false

/-!
# Who acts by a packet

No two credentials of a keyring share a secret, so at most one of them can have signed a packet. The
gateway lets a packet through only if the actor its payload names is that credential's capsuleer,
and the market plans the work of that same payload for that same actor.
-/
namespace EveTrade.GatewayIdentity

open FieldText TransactionMonad SettlementTypes
open EveTrade.SettlementSchema (Db)
open SettlementWork ValidationRules GoJson MarketHandler MarketGui GatewayPackets

variable {codec : Codec} {server : QuilkinUdpServer} {packet : ByteArray}

section Keyring

variable {ring ring' : Keyring}

/-- Each secret of the keyring is on record, and none is there twice. -/
structure Keyring.Sound (codec : Codec) (ring : Keyring) : Prop where
  recorded : ring.secretKeys.map Prod.fst =
    ring.credentials.map fun c => secretFingerprint codec c.2
  distinct : (ring.credentials.map fun c => secretFingerprint codec c.2).Nodup

theorem addCredential_sound {keyId : String}
    {sent : UdpPrincipalCredential} (hring : Keyring.Sound codec ring)
    (h : addCredential codec ring keyId sent = .ok ring') : Keyring.Sound codec ring' := by
  obtain ⟨_, _, h⟩ := except_bind_eq_ok.1 h
  cases hcapsuleer : ring.capsuleerKeys.lookup sent.capsuleerId with
  | some previous =>
    simp only [hcapsuleer] at h
    cases h
  | none =>
    simp only [hcapsuleer] at h
    cases hsecret : ring.secretKeys.find? fun key =>
        key.1 = secretFingerprint codec { sent with secret := trim sent.secret } with
    | some previous =>
      simp only [hsecret] at h
      cases h
    | none =>
      simp only [hsecret] at h
      obtain rfl := Except.ok.inj h
      have hnew : secretFingerprint codec { sent with secret := trim sent.secret } ∉
          ring.credentials.map fun c => secretFingerprint codec c.2 := by
        rw [← hring.recorded, List.mem_map]
        rintro ⟨p, hp, heq⟩
        exact List.find?_eq_none.1 hsecret p hp (decide_eq_true heq)
      constructor
      · simp only [List.map_cons, hring.recorded]
      · rw [List.map_cons]
        exact List.nodup_cons.2 ⟨hnew, hring.distinct⟩

theorem addEntry_sound {entry : KeyringEntry}
    (hring : Keyring.Sound codec ring) (h : addEntry codec ring entry = .ok ring') :
    Keyring.Sound codec ring' := by
  cases entry with
  | unreadable e => cases h
  | notString => cases h
  | entry keyId credential =>
    simp only [addEntry] at h
    split_ifs at h
    cases credential with
    | error e => cases h
    | ok sent => exact addCredential_sound hring h

theorem addEntries_sound {entries : List KeyringEntry}
    (hring : Keyring.Sound codec ring) (h : addEntries codec ring entries = .ok ring') :
    Keyring.Sound codec ring' := by
  induction entries generalizing ring with
  | nil =>
    obtain rfl := Except.ok.inj h
    exact hring
  | cons entry entries ih =>
    obtain ⟨middle, hentry, h⟩ := except_bind_eq_ok.1 h
    exact ih (addEntry_sound hring hentry) h

theorem parseUdpPrincipalKeys_distinct {value : String}
    {keys : List (String × UdpPrincipalCredential)}
    (h : parseUdpPrincipalKeys codec value = .ok keys) :
    (keys.map fun c => secretFingerprint codec c.2).Nodup := by
  unfold parseUdpPrincipalKeys at h
  split_ifs at h with hblank
  · obtain rfl := Except.ok.inj h
    exact List.nodup_nil
  · obtain ⟨_, _, h⟩ := except_bind_eq_ok.1 h
    obtain ⟨ring, hring, h⟩ := except_bind_eq_ok.1 h
    obtain ⟨_, _, h⟩ := except_bind_eq_ok.1 h
    obtain ⟨_, _, h⟩ := except_bind_eq_ok.1 h
    have hempty : Keyring.Sound codec ⟨[], [], []⟩ := ⟨rfl, List.nodup_nil⟩
    have hsound := addEntries_sound hempty hring
    cases hinvalid : ring.credentials.find? fun c => ¬ validCredential c.1 c.2 with
    | some c =>
      rw [hinvalid] at h
      cases h
    | none =>
      rw [hinvalid] at h
      obtain rfl := Except.ok.inj h
      exact hsound.distinct

end Keyring

section Signatures

/-- The signature of a packet, and the bytes of its schema, algorithm, key id and canonical payload
that it has to be a signature of. -/
def signedParts (codec : Codec) (packet : ByteArray) : Option (ByteArray × ByteArray) := do
  let envelope ← codec.decodeEnvelope packet
  let auth ← envelope.auth
  let canonicalPayload ← canonicalJson codec envelope.payload
  let signature ← codec.decodeBase64 auth.signature
  let signingBytes ← envelopeSigningBytes codec envelope.schemaVersion auth.algorithm auth.keyId
    canonicalPayload
  some (signature, signingBytes)

def SignedBy (codec : Codec) (packet : ByteArray) (credential : UdpPrincipalCredential) : Prop :=
  ∃ parts ∈ signedParts codec packet,
    parts.1 = codec.hmacSha256 credential.secret.toByteArray parts.2

/-- Distinct secrets never sign a message alike. -/
def SeparatesSecrets (codec : Codec) : Prop :=
  ∀ secret other message, secret ≠ other →
    codec.hmacSha256 secret message ≠ codec.hmacSha256 other message

theorem signer_unique {value : String} {keys : List (String × UdpPrincipalCredential)}
    (separates : SeparatesSecrets codec) (parsed : parseUdpPrincipalKeys codec value = .ok keys)
    {entry other : String × UdpPrincipalCredential} (hentry : entry ∈ keys) (hother : other ∈ keys)
    (signed : SignedBy codec packet entry.2) (signed' : SignedBy codec packet other.2) :
    other = entry := by
  obtain ⟨parts, hparts, hmac⟩ := signed
  obtain ⟨parts', hparts', hmac'⟩ := signed'
  obtain rfl := Option.mem_unique hparts hparts'
  have hsecret : other.2.secret.toByteArray = entry.2.secret.toByteArray := by
    by_contra hne
    exact separates _ _ parts.2 hne (hmac'.symm.trans hmac)
  have hfingerprint : secretFingerprint codec other.2 = secretFingerprint codec entry.2 :=
    congrArg codec.sha256 hsecret
  exact List.inj_on_of_nodup_map (parseUdpPrincipalKeys_distinct parsed) hother hentry hfingerprint

end Signatures

section Actors

def TradeActionKind.actions : TradeActionKind → List String
  | .issue => issueActions
  | .accept => acceptActions
  | .cancel => cancelActions

theorem tradeGuiActions_lookup {action : String} {kind : TradeActionKind}
    (h : tradeGuiActions.lookup action = some kind) :
    (TradeActionKind.actions kind).contains action = true := by
  obtain ⟨before, after, heq, _⟩ := List.lookup_eq_some_iff.1 h
  have hmem : (action, kind) ∈ tradeGuiActions := by
    rw [heq]
    simp
  revert hmem
  cases kind <;> simp +decide [tradeGuiActions, TradeActionKind.actions, issueActions,
    acceptActions, cancelActions]

theorem tradeGuiActions_covers {action : String} (h : tradeGuiAction.holds action = true) :
    ∃ kind, tradeGuiActions.lookup action = some kind := by
  simp only [tradeGuiAction, issueActions, acceptActions, cancelActions, List.cons_append,
    List.nil_append, List.contains_eq_mem, List.mem_cons, List.not_mem_nil, or_false,
    decide_eq_true_eq] at h
  rcases h with rfl | rfl | rfl | rfl | rfl | rfl | rfl | rfl | rfl
  · exact ⟨.issue, by decide⟩
  · exact ⟨.issue, by decide⟩
  · exact ⟨.issue, by decide⟩
  · exact ⟨.accept, by decide⟩
  · exact ⟨.accept, by decide⟩
  · exact ⟨.accept, by decide⟩
  · exact ⟨.cancel, by decide⟩
  · exact ⟨.cancel, by decide⟩
  · exact ⟨.cancel, by decide⟩

theorem actor_eq_principal {id message : String} {actions : List String}
    {field : AuthenticatedTradeGuiActor → Int} {a : AuthenticatedTradeGuiActor}
    (h : (actorMatchesPrincipal id message actions field).check "" a = [])
    (haction : actions.contains a.action = true) : field a = a.authenticatedCapsuleerId := by
  have hholds := Rule.check_eq_nil.1 h
  simpa only [actorMatchesPrincipal, haction, Bool.not_true, Bool.false_or, beq_iff_eq]
    using hholds

/-- A payload that passes for a principal names that principal as the actor of its action. -/
theorem validateAuthenticatedActor_eq_ok {rawPayload : ByteArray} {principalId : Int}
    (h : validateAuthenticatedActor codec rawPayload principalId = .ok ()) :
    ∃ sent kind, codec.protojson.unmarshal true rawPayload = .ok sent ∧
      tradeGuiActions.lookup (trim sent.getUi.action) = some kind ∧
      kind.actor sent.getInput = principalId := by
  unfold validateAuthenticatedActor at h
  cases hsent : codec.protojson.unmarshal true rawPayload with
  | error e =>
    rw [hsent] at h
    cases h
  | ok sent =>
    rw [hsent] at h
    have hvalid := check_eq_ok.1 h
    simp only [AuthenticatedTradeGuiActor.violations, List.append_eq_nil_iff] at hvalid
    obtain ⟨⟨⟨⟨⟨⟨hissue, haccept⟩, hcancel⟩, _⟩, _⟩, _⟩, haction⟩ := hvalid
    obtain ⟨kind, hkind⟩ := tradeGuiActions_covers (Rule.check_eq_nil.1 haction)
    refine ⟨sent, kind, rfl, hkind, ?_⟩
    have hcontains := tradeGuiActions_lookup hkind
    cases kind with
    | issue => exact actor_eq_principal hissue hcontains
    | accept => exact actor_eq_principal haccept hcontains
    | cancel => exact actor_eq_principal hcancel hcontains

theorem principal_unique {rawPayload : ByteArray} {principalId other : Int}
    (h : validateAuthenticatedActor codec rawPayload principalId = .ok ())
    (h' : validateAuthenticatedActor codec rawPayload other = .ok ()) : principalId = other := by
  obtain ⟨sent, kind, hsent, hkind, rfl⟩ := validateAuthenticatedActor_eq_ok h
  obtain ⟨sent', kind', hsent', hkind', rfl⟩ := validateAuthenticatedActor_eq_ok h'
  obtain rfl := Except.ok.inj (hsent.symm.trans hsent')
  obtain rfl := Option.some.inj (hkind.symm.trans hkind')
  rfl

end Actors

section Packets

variable {request : AuthenticatedPayload}

theorem orReject_eq_ok {α : Type} {rejection : PacketRejection} {x : Option α} {a : α} :
    orReject rejection x = .ok a ↔ x = some a := by
  cases x <;> simp [orReject]

/-- Everything that a packet has passed when its payload is authenticated. -/
inductive Verified (codec : Codec) (server : QuilkinUdpServer) (packet : ByteArray)
    (request : AuthenticatedPayload) : Prop where
  | intro (envelope : EdgeEnvelope) (auth : EdgeAuth) (signature : ByteArray)
      (credential : UdpPrincipalCredential) (signingBytes : ByteArray)
      (decoded : codec.decodeEnvelope packet = some envelope)
      (valid : validateEdgeEnvelope codec envelope = .ok ())
      (sealed : envelope.auth = some auth)
      (canonical : canonicalJson codec envelope.payload = some request.payload)
      (encoded : codec.decodeBase64 auth.signature = some signature)
      (known : usableCredential server auth.keyId = some credential)
      (covered : envelopeSigningBytes codec envelope.schemaVersion auth.algorithm auth.keyId
        request.payload = some signingBytes)
      (signed : signature = codec.hmacSha256 credential.secret.toByteArray signingBytes)
      (named : extractInteractionId codec request.payload = some request.interactionId)
      (actor : validateAuthenticatedActor codec request.payload credential.capsuleerId = .ok ())
      (principal : request.principalId = credential.capsuleerId)

/-- A server with a secret, or one that requires it, checks signatures. -/
def ChecksSignatures (server : QuilkinUdpServer) : Prop :=
  server.authRequired = true ∨ server.hmacSecret.size ≠ 0

theorem verified_of_authenticatedPayload (checks : ChecksSignatures server)
    (h : authenticatedPayload codec server packet = .ok request) :
    Verified codec server packet request := by
  unfold authenticatedPayload at h
  split_ifs at h with hopen hsecret
  · rcases checks with required | configured
    · rw [required] at hopen
      cases hopen.1
    · exact absurd hopen.2 configured
  · obtain ⟨envelope, henvelope, h⟩ := except_bind_eq_ok.1 h
    obtain ⟨_, hvalid, h⟩ := except_bind_eq_ok.1 h
    obtain ⟨auth, hauth, h⟩ := except_bind_eq_ok.1 h
    obtain ⟨canonicalPayload, hcanonical, h⟩ := except_bind_eq_ok.1 h
    obtain ⟨signature, hsignature, h⟩ := except_bind_eq_ok.1 h
    obtain ⟨credential, hcredential, h⟩ := except_bind_eq_ok.1 h
    obtain ⟨signingBytes, hbytes, h⟩ := except_bind_eq_ok.1 h
    obtain ⟨_, hmac, h⟩ := except_bind_eq_ok.1 h
    obtain ⟨interactionId, hid, h⟩ := except_bind_eq_ok.1 h
    obtain ⟨_, hactor, h⟩ := except_bind_eq_ok.1 h
    obtain rfl := Except.ok.inj h
    exact .intro envelope auth signature credential signingBytes (orReject_eq_ok.1 henvelope)
      hvalid (orReject_eq_ok.1 hauth) (orReject_eq_ok.1 hcanonical)
      (orReject_eq_ok.1 hsignature) (orReject_eq_ok.1 hcredential) (orReject_eq_ok.1 hbytes)
      (check_eq_ok.1 hmac) (orReject_eq_ok.1 hid) hactor rfl

/-- What is known of a packet that passed the authentication. -/
structure Authenticated (codec : Codec) (server : QuilkinUdpServer) (packet : ByteArray)
    (request : AuthenticatedPayload) : Prop where
  signed : ∃ entry ∈ server.principals,
    SignedBy codec packet entry.2 ∧ entry.2.capsuleerId = request.principalId
  actor : validateAuthenticatedActor codec request.payload request.principalId = .ok ()

theorem authenticatedPayload_eq_ok (required : server.authRequired = true)
    (h : authenticatedPayload codec server packet = .ok request) :
    Authenticated codec server packet request := by
  cases verified_of_authenticatedPayload (.inl required) h with
  | intro envelope auth signature credential signingBytes decoded valid sealed canonical encoded
      known covered signed named actor principal =>
    have hparts : signedParts codec packet = some (signature, signingBytes) := by
      simp only [signedParts, decoded, sealed, canonical, encoded, covered, Option.bind_eq_bind,
        Option.bind_some]
    have hlookup := (Option.filter_eq_some_iff.1 known).1
    obtain ⟨before, after, heq, _⟩ := List.lookup_eq_some_iff.1 hlookup
    have hmem : (auth.keyId, credential) ∈ server.principals := by
      rw [heq]
      simp
    refine ⟨⟨_, hmem, ⟨_, hparts, signed⟩, principal.symm⟩, ?_⟩
    rw [principal]
    exact actor

theorem authenticatedPayload_id (required : server.authRequired = true)
    (h : authenticatedPayload codec server packet = .ok request) :
    extractInteractionId codec request.payload = some request.interactionId := by
  cases verified_of_authenticatedPayload (.inl required) h
  assumption

theorem receive_admitted {sourceAllowed principalAllowed : Bool}
    (required : server.authRequired = true)
    (h : receive codec server sourceAllowed principalAllowed packet = .admitted request) :
    Authenticated codec server packet request := by
  unfold receive at h
  cases hauth : authenticatedPayload codec server packet with
  | error rejection =>
    simp only [hauth] at h
    split_ifs at h
  | ok authenticated =>
    simp only [hauth] at h
    have hok := authenticatedPayload_eq_ok required hauth
    split_ifs at h <;>
    · obtain rfl := Admission.admitted.inj h
      exact ⟨hok.signed, hok.actor⟩

/-- The work that the market makes of a packet acts for the capsuleer of the one credential that
signed the packet. -/
theorem work_acts_for_signer (codec : Codec) (consistent : codec.protojson.Consistent)
    (separates : SeparatesSecrets codec) (value : String)
    (keys : List (String × UdpPrincipalCredential))
    (parsed : parseUdpPrincipalKeys codec value = .ok keys) (server : QuilkinUdpServer)
    (principals : server.principals = keys) (required : server.authRequired = true)
    (sourceAllowed principalAllowed : Bool) (packet : ByteArray) (request : AuthenticatedPayload)
    (received : receive codec server sourceAllowed principalAllowed packet = .admitted request)
    (ext : External) (now : DateTime) (db : Db) (work : Work)
    (submitted : planned (submitTradeGuiInteraction ext now db codec.protojson request.payload) =
      some work) :
    (∃! entry, entry ∈ keys ∧ SignedBy codec packet entry.2) ∧
    (∀ entry ∈ keys, SignedBy codec packet entry.2 →
      work.causedByCapsuleerId = entry.2.capsuleerId) ∧
    ∃ sent kind, codec.protojson.unmarshal false request.payload = .ok sent ∧
      tradeGuiActions.lookup (trim sent.getUi.action) = some kind ∧
      work.causedByCapsuleerId = kind.actor sent.getInput := by
  have hauth := receive_admitted required received
  obtain ⟨entry, hentry, hsigned, hprincipal⟩ := hauth.signed
  rw [principals] at hentry
  obtain ⟨sent, kind, hsent, hkind, hactor⟩ := submitted_actor submitted
  have hwork : work.causedByCapsuleerId = entry.2.capsuleerId := by
    obtain ⟨sent', kind', hsent', hkind', hactor'⟩ := validateAuthenticatedActor_eq_ok hauth.actor
    obtain rfl := Except.ok.inj ((consistent _ _ hsent).symm.trans hsent')
    obtain rfl := Option.some.inj (hkind.symm.trans hkind')
    rw [hactor, hactor', hprincipal]
  have hunique : ∀ other ∈ keys, SignedBy codec packet other.2 → other = entry :=
    fun other hother hsigned' => signer_unique separates parsed hentry hother hsigned hsigned'
  refine ⟨⟨entry, ⟨hentry, hsigned⟩, fun other h => hunique other h.1 h.2⟩, ?_,
    sent, kind, hsent, hkind, hactor⟩
  intro other hother hsigned'
  rw [hunique other hother hsigned']
  exact hwork

end Packets

section Seeded

open LocalDevWorld

def sellOrder : TradeGuiInteraction where
  schemaVersion := "eve-trade-gui.v1"
  interactionId := "issue"
  ui := some ⟨"market", "sell", "market_place_sell_order", "sell"⟩
  input := some { TradeGuiInput.unset with
    issuedByCapsuleerId := sellerId
    itemStack := some ⟨sourceStackId.text, sellerId, 34, 60003760, 100⟩
    quantity := 10
    unitPriceIsk := 25 }

/-- Libraries that read every packet as a sell order under the seller's key, whose signature is the
secret itself. -/
def sellOrderCodec : Codec where
  text := fun _ => "sell"
  quote := id
  readKeyring := fun _ => ⟨.ok true, [.entry "seller" (.ok ⟨sellerId, "s"⟩),
    .entry "buyer" (.ok ⟨buyerId, "b"⟩)], none, none⟩
  decodeEnvelope := fun body =>
    some ⟨"eve-trade-edge.v2", body, some ⟨"hmac-sha256", "seller", "s"⟩⟩
  unmarshalEnvelope := fun _ => none
  decodeHeader := fun _ => some ⟨"eve-trade-gui.v1", "issue"⟩
  decodeValue := fun _ => some (.string "sell")
  decodeBase64 := fun s => some s.toByteArray
  encodeBase64 := fun _ => ""
  sha256 := id
  hmacSha256 := fun secret _ => secret
  protojson := ⟨fun _ _ => .ok sellOrder⟩

def sellerAndBuyer : List (String × UdpPrincipalCredential) :=
  [("buyer", ⟨buyerId, "b"⟩), ("seller", ⟨sellerId, "s"⟩)]

def guardedServer : QuilkinUdpServer := ⟨true, "edge".toByteArray, "edge", sellerAndBuyer⟩

def sellOrderPayload : AuthenticatedPayload := ⟨"\"sell\"".toByteArray, "issue", sellerId⟩

def submittedWork : Option Work :=
  planned (submitTradeGuiInteraction hexadecimal 0 (localDevWorld hexadecimal)
    sellOrderCodec.protojson sellOrderPayload.payload)

theorem sellOrder_received : receive sellOrderCodec guardedServer true true "sell".toByteArray =
    .admitted sellOrderPayload := by rfl

theorem sellOrderCodec_separates : SeparatesSecrets sellOrderCodec := fun _ _ _ hne => hne

theorem sellOrder_signed :
    SignedBy sellOrderCodec "sell".toByteArray ⟨sellerId, "s"⟩ := ⟨_, rfl, rfl⟩

/-- The sell order is planned as an act of the seller, who alone can have signed it. -/
theorem work_acts_for_signer_sellOrder : ∃ work, submittedWork = some work ∧
    (∃! entry, entry ∈ sellerAndBuyer ∧ SignedBy sellOrderCodec "sell".toByteArray entry.2) ∧
    work.causedByCapsuleerId = sellerId := by
  have hplanned : submittedWork.isSome = true := by decide +kernel
  obtain ⟨work, hwork⟩ := Option.isSome_iff_exists.1 hplanned
  obtain ⟨hunique, hacts, _⟩ := work_acts_for_signer sellOrderCodec (fun _ _ h => h)
    sellOrderCodec_separates "keys" sellerAndBuyer rfl guardedServer rfl rfl true true _ _
    sellOrder_received hexadecimal 0 (localDevWorld hexadecimal) work hwork
  exact ⟨work, hwork, hunique, hacts ("seller", ⟨sellerId, "s"⟩) (by decide) sellOrder_signed⟩

end Seeded

end EveTrade.GatewayIdentity
